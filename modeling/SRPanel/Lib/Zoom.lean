import SRPanel.Lib.Prog

/-!
# Procedures on a part of the store

A `Focus` picks a part out of a larger store. `Prog.zoom` runs a procedure on that part: its steps
act on the part and leave the rest of the larger store alone.
-/

namespace Interleaving

variable {ℓ ℓ' σ τ ε α β : Type}

/-- A part `σ` of the store `τ`. -/
structure Focus (σ τ : Type) where
  get : τ → σ
  put : σ → τ → τ
  get_put : ∀ s t, get (put s t) = s
  put_get : ∀ t, put (get t) t = t
  put_put : ∀ s s' t, put s (put s' t) = put s t

namespace Focus

variable (F : Focus σ τ)

attribute [simp] get_put put_get put_put

/-- Nothing outside the part differs. -/
def Frame (t t' : τ) : Prop := F.put (F.get t') t = t'

theorem frame_refl (t : τ) : F.Frame t t := F.put_get t

theorem frame_put (s : σ) (t : τ) : F.Frame t (F.put s t) := by
  rw [Frame, F.get_put]

end Focus

namespace Prog

/-- Run `p` on the part of a larger store, with its labels renamed. -/
def zoom (F : Focus σ τ) (lab : ℓ → ℓ') : Prog ℓ σ ε α → Prog ℓ' τ ε α
  | ret a => ret a
  | fail e => fail e
  | act l u k h => act (lab l) (fun t => F.put (u (F.get t)) t)
      (fun t => (k (F.get t)).zoom F lab) fun e => (h e).zoom F lab

variable (F : Focus σ τ) (lab : ℓ → ℓ')

@[simp] theorem zoom_pure (a : α) : (pure a : Prog ℓ σ ε α).zoom F lab = pure a := rfl

@[simp] theorem zoom_throw (e : ε) : (throw e : Prog ℓ σ ε α).zoom F lab = throw e := rfl

@[simp] theorem zoom_bind (p : Prog ℓ σ ε β) (f : β → Prog ℓ σ ε α) :
    (p >>= f).zoom F lab = p.zoom F lab >>= fun b => (f b).zoom F lab := by
  show (p.bind f).zoom F lab = (p.zoom F lab).bind _
  induction p with
  | ret b => rfl
  | fail e => rfl
  | act l u k h ihk ihh => simp only [bind, zoom, ihk, ihh]

@[simp] theorem zoom_ite (c : Prop) [Decidable c] (p q : Prog ℓ σ ε α) :
    (if c then p else q).zoom F lab = if c then p.zoom F lab else q.zoom F lab := by
  split <;> rfl

/-- A step on the part is a step on the store. -/
theorem zoom_step (l : ℓ) (f : σ → Except ε α × σ) :
    (step l f).zoom F lab = step (lab l) fun t => ((f (F.get t)).1, F.put (f (F.get t)).2 t) := by
  have houtcome : ∀ r : Except ε α, (ofExcept r : Prog ℓ σ ε α).zoom F lab = ofExcept r := by
    intro r
    cases r with
    | ok a => rfl
    | error e => rfl
  show act (lab l) _ (fun t => (ofExcept (f (F.get t)).1).zoom F lab) (fun e => fail e) = _
  simp only [houtcome]
  rfl

/-- A read of the part is a read of the store. -/
theorem zoom_query (l : ℓ) (f : σ → α) :
    (query l f : Prog ℓ σ ε α).zoom F lab = query (lab l) fun t => f (F.get t) := by
  unfold query
  rw [zoom_step]
  simp only [F.put_get]

/-- A lone run on a part leaves the rest of the store as it was. -/
theorem run_zoom (p : Prog ℓ σ ε α) (t : τ) :
    (p.zoom F lab).run t = ((p.run (F.get t)).1, F.put (p.run (F.get t)).2 t) := by
  induction p generalizing t with
  | ret a => simp only [zoom, run, F.put_get]
  | fail e => simp only [zoom, run, F.put_get]
  | act l u k h ih _ =>
      simp only [zoom, run, ih, F.get_put, F.put_put]

@[simp] theorem wp_zoom (p : Prog ℓ σ ε α) {Q : α → τ → Prop} {E : ε → τ → Prop} {t : τ} :
    wp (p.zoom F lab) Q E t ↔
      wp p (fun a s => Q a (F.put s t)) (fun e s => E e (F.put s t)) (F.get t) := by
  simp only [wp, run_zoom]
  rcases p.run (F.get t) with ⟨_ | _, _⟩ <;> rfl

/-- A frame on the part, and no change outside it. -/
theorem Keeps.zoom {R : σ → σ → Prop} {p : Prog ℓ σ ε α} (hp : p.Keeps R) :
    (p.zoom F lab).Keeps fun t t' => R (F.get t) (F.get t') ∧ F.Frame t t' := by
  induction hp with
  | ret a => exact .ret a
  | fail e => exact .fail e
  | act hu _ _ ihk ihh =>
      refine .act (fun t => ⟨?_, F.frame_put _ t⟩) (fun t => ihk _) ihh
      rw [F.get_put]
      exact hu _

/-- Nothing outside the part changes. -/
theorem zoom_frame (p : Prog ℓ σ ε α) : (p.zoom F lab).Keeps F.Frame := by
  induction p with
  | ret a => exact .ret a
  | fail e => exact .fail e
  | act l u k h ihk ihh => exact .act (fun t => F.frame_put _ t) (fun t => ihk _) ihh

end Prog

end Interleaving
