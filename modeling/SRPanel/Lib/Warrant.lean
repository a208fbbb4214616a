import SRPanel.Lib.Pool
import Mathlib.Data.Set.Insert

/-!
# Warrants

A procedure checks first and acts later, and others move in between. `Warranted` says of every
atomic step of a procedure that the stores on which the procedure has stepped so far warrant it:
what it does now, it may do for what it has seen. In a pool all these stores are states that the run
has passed.
-/

namespace Interleaving

open Relation (ReflTransGen)

variable {ℓ σ ε α β : Type}

/-- The one step of a procedure within a frame. -/
theorem Prog.Keeps.of_step {R : σ → σ → Prop} {l : ℓ} {F : σ → Except ε α × σ}
    (h : (Prog.step l F).Keeps R) (s : σ) : R s (F s).2 := by
  unfold Prog.step at h
  cases h with
  | act hu _ _ => exact hu s

section Rules

/-- `I` holds of every store, `G` between a store that was seen and a later one, and the stores in
`seen` are the ones that the procedure has stepped on or has left behind. Every step is within `W`;
`Q` holds of a result and `E` of an error, with the stores seen by then. -/
def Warranted (I : σ → Prop) (G : σ → σ → Prop) (W : Set σ → σ → σ → Prop) (Q : α → Set σ → Prop)
    (E : ε → Set σ → Prop) : Prog ℓ σ ε α → Set σ → Prop
  | .ret a, seen => Q a seen
  | .fail e, seen => E e seen
  | .act _ u k _, seen => ∀ s, I s → (∀ t ∈ seen, G t s) →
      W (insert s seen) s (u s) ∧ Warranted I G W Q E (k s) (insert (u s) (insert s seen))

variable {I : σ → Prop} {G : σ → σ → Prop} {W : Set σ → σ → σ → Prop}
variable {Q : α → Set σ → Prop} {E : ε → Set σ → Prop} {seen : Set σ}

theorem subset_seen (s t : σ) (seen : Set σ) : seen ⊆ insert t (insert s seen) :=
  (Set.subset_insert s seen).trans (Set.subset_insert t _)

theorem warranted_pure {a : α} (h : Q a seen) : Warranted I G W Q E (pure a : Prog ℓ σ ε α) seen :=
  h

theorem warranted_throw {e : ε} (h : E e seen) :
    Warranted I G W Q E (throw e : Prog ℓ σ ε α) seen := h

theorem warranted_ite {c : Prop} [Decidable c] {p q : Prog ℓ σ ε α}
    (hp : c → Warranted I G W Q E p seen) (hq : ¬c → Warranted I G W Q E q seen) :
    Warranted I G W Q E (if c then p else q) seen := by
  split
  · next hc => exact hp hc
  · next hc => exact hq hc

theorem warranted_ofExcept {r : Except ε α} (hQ : ∀ a, r = .ok a → Q a seen)
    (hE : ∀ e, r = .error e → E e seen) :
    Warranted I G W Q E (Prog.ofExcept r : Prog ℓ σ ε α) seen := by
  cases r with
  | ok a => exact hQ a rfl
  | error e => exact hE e rfl

/-- The rule for one atomic step. -/
theorem warranted_step {l : ℓ} {F : σ → Except ε α × σ}
    (h : ∀ s, I s → (∀ t ∈ seen, G t s) → W (insert s seen) s (F s).2 ∧
      (∀ a, (F s).1 = .ok a → Q a (insert (F s).2 (insert s seen))) ∧
      ∀ e, (F s).1 = .error e → E e (insert (F s).2 (insert s seen))) :
    Warranted I G W Q E (Prog.step l F) seen := by
  intro s hs hseen
  obtain ⟨hW, hok, herr⟩ := h s hs hseen
  exact ⟨hW, warranted_ofExcept hok herr⟩

theorem warranted_modify {l : ℓ} {f : σ → σ} {Q : Unit → Set σ → Prop}
    (h : ∀ s, I s → (∀ t ∈ seen, G t s) →
      W (insert s seen) s (f s) ∧ Q () (insert (f s) (insert s seen))) :
    Warranted I G W Q E (Prog.modify l f : Prog ℓ σ ε Unit) seen :=
  warranted_step fun s hs hseen =>
    ⟨(h s hs hseen).1, fun _ _ => (h s hs hseen).2, fun e he => by cases he⟩

/-- The rule for sequencing. -/
theorem warranted_bind {R : β → Set σ → Prop} {p : Prog ℓ σ ε β} {f : β → Prog ℓ σ ε α}
    (hp : Warranted I G W R E p seen)
    (hf : ∀ b seen', seen ⊆ seen' → R b seen' → Warranted I G W Q E (f b) seen') :
    Warranted I G W Q E (p >>= f) seen := by
  change Warranted I G W Q E (p.bind f) seen
  induction p generalizing seen with
  | ret b => exact hf b seen subset_rfl hp
  | fail e => exact hp
  | act l u k h ih _ =>
      intro s hs hseen
      obtain ⟨hW, hk⟩ := hp s hs hseen
      exact ⟨hW, ih s hk fun b seen' hsub => hf b seen' ((subset_seen s _ seen).trans hsub)⟩

/-- A read before the rest of a procedure. -/
theorem warranted_read {l : ℓ} {g : σ → β} {f : β → Prog ℓ σ ε α} (hW : ∀ seen s, W seen s s)
    (hf : ∀ s, I s → (∀ t ∈ seen, G t s) → Warranted I G W Q E (f (g s)) (insert s seen)) :
    Warranted I G W Q E (Prog.query l g >>= f) seen := by
  refine fun s hs hseen => ⟨hW _ s, ?_⟩
  change Warranted I G W Q E (f (g s)) (insert s (insert s seen))
  rw [Set.insert_eq_of_mem (Set.mem_insert s seen)]
  exact hf s hs hseen

/-- The rule for handlers. -/
theorem warranted_attempt {F : ε → Set σ → Prop} {p : Prog ℓ σ ε α} {H : ε → Prog ℓ σ ε α}
    (hp : Warranted I G W Q F p seen)
    (hH : ∀ e seen', seen ⊆ seen' → F e seen' → Warranted I G W Q E (H e) seen') :
    Warranted I G W Q E (p.attempt H) seen := by
  induction p generalizing seen with
  | ret a => exact hp
  | fail e => exact hH e seen subset_rfl hp
  | act l u k h ih _ =>
      intro s hs hseen
      obtain ⟨hW, hk⟩ := hp s hs hseen
      exact ⟨hW, ih s hk fun e seen' hsub => hH e seen' ((subset_seen s _ seen).trans hsub)⟩

/-- A procedure run for its effect. -/
theorem warranted_void {p : Prog ℓ σ ε α}
    (hp : Warranted I G W (fun _ _ => True) (fun _ _ => True) p seen) :
    Warranted I G W (fun _ _ => True) (fun _ _ => True) p.void seen :=
  warranted_attempt (warranted_bind hp fun _ _ _ _ => warranted_pure trivial) fun _ _ _ _ =>
    warranted_pure trivial

/-- What is known of the stores seen so far stays known. -/
theorem warranted_known {P : Set σ → Prop} (hmono : ∀ seen seen', seen ⊆ seen' → P seen → P seen')
    (hP : P seen) {p : Prog ℓ σ ε α} :
    Warranted I G (fun _ _ _ => True) (fun _ => P) (fun _ _ => True) p seen := by
  induction p generalizing seen with
  | ret a => exact hP
  | fail e => trivial
  | act l u k h ih _ => exact fun s _ _ => ⟨trivial, ih s (hmono seen _ (subset_seen s _ seen) hP)⟩

/-- A procedure within a frame whose steps are warranted; what is known before it stays known. -/
theorem warranted_keeps {P : Set σ → Prop} (hmono : ∀ seen seen', seen ⊆ seen' → P seen → P seen')
    (hP : P seen) {R : σ → σ → Prop}
    (hW : ∀ seen s s', P seen → I s → (∀ t ∈ seen, G t s) → R s s' → W (insert s seen) s s')
    {p : Prog ℓ σ ε α} (hp : p.Keeps R) :
    Warranted I G W (fun _ => P) (fun _ _ => True) p seen := by
  induction hp generalizing seen with
  | ret a => exact hP
  | fail e => trivial
  | act hu _ _ ih _ =>
      exact fun s hs hseen => ⟨hW seen s _ hP hs hseen (hu s),
        ih s (hmono seen _ (subset_seen s _ seen) hP)⟩

/-- A weaker conclusion about results. -/
theorem Warranted.weaken {Q' : α → Set σ → Prop} {p : Prog ℓ σ ε α} (h : Warranted I G W Q E p seen)
    (hQ : ∀ a seen, Q a seen → Q' a seen) : Warranted I G W Q' E p seen := by
  induction p generalizing seen with
  | ret a => exact hQ a seen h
  | fail e => exact h
  | act l u k _ ih _ =>
      intro s hs hseen
      obtain ⟨hact, hk⟩ := h s hs hseen
      exact ⟨hact, ih s hk⟩

/-- A weaker conclusion about steps. -/
theorem Warranted.wider {W' : Set σ → σ → σ → Prop} (hW : ∀ seen s t, W seen s t → W' seen s t)
    {p : Prog ℓ σ ε α} (h : Warranted I G W Q E p seen) : Warranted I G W' Q E p seen := by
  induction p generalizing seen with
  | ret a => exact h
  | fail e => exact h
  | act l u k _ ih _ =>
      intro s hs hseen
      obtain ⟨hact, hk⟩ := h s hs hseen
      exact ⟨hW _ _ _ hact, ih s hk⟩

/-- What is known of a result whatever the store is. -/
theorem Warranted.yields {R : α → Prop} {p : Prog ℓ σ ε α} (h : Warranted I G W Q E p seen)
    (hp : p.Yields R) : Warranted I G W (fun a seen => R a ∧ Q a seen) E p seen := by
  induction hp generalizing seen with
  | ret ha => exact ⟨ha, h⟩
  | fail e => exact h
  | act _ _ ih _ =>
      intro s hs hseen
      obtain ⟨hact, hk⟩ := h s hs hseen
      exact ⟨hact, ih s hk⟩

end Rules

section Soundness

variable {I : σ → Prop} {G : σ → σ → Prop} {env : σ → σ → Prop} {ok : ℓ → σ → Prop}

/-- The stores of the states that a run has passed. -/
def Pool.Past (env : σ → σ → Prop) (ok : ℓ → σ → Prop) (c₀ c : Pool ℓ σ ε) : Set σ :=
  {s | ∃ c', Run env ok c₀ c' ∧ Run env ok c' c ∧ c'.store = s}

theorem Pool.Past.mono {c₀ c c' : Pool ℓ σ ε} (h : Run env ok c c') :
    Past env ok c₀ c ⊆ Past env ok c₀ c' := by
  rintro s ⟨d, hd, hdc, rfl⟩
  exact ⟨d, hd, hdc.trans h, rfl⟩

theorem Pool.Past.self {c₀ c : Pool ℓ σ ε} (h : Run env ok c₀ c) : c.store ∈ Past env ok c₀ c :=
  ⟨c, h, .refl, rfl⟩

/-- A run neither adds nor removes procedures. -/
theorem Pool.Run.length {c₀ c : Pool ℓ σ ε} (h : Run env ok c₀ c) :
    c.threads.length = c₀.threads.length := by
  induction h with
  | refl => rfl
  | tail _ hstep ih =>
      cases hstep with
      | env => exact ih
      | act => exact List.length_set.trans ih

/-- The procedure at `i` is about to make the step `u`. -/
def Pool.Acts (c : Pool ℓ σ ε) (i : ℕ) (u : σ → σ) : Prop :=
  ∃ (l : ℓ) (k : σ → Prog ℓ σ ε Unit) (h : ε → Prog ℓ σ ε Unit), c.threads[i]? = some (.act l u k h)

/-- What came true on a run, and not by others, came true by a step of a procedure. -/
theorem Pool.Run.begun {P : σ → Prop} (henv : ∀ s t, env s t → P t → P s) {c₀ c : Pool ℓ σ ε}
    (h : Run env ok c₀ c) (h₀ : ¬P c₀.store) (hP : P c.store) :
      ∃ b i u, Run env ok c₀ b ∧ Run env ok b c ∧ b.Acts i u ∧ ¬P b.store ∧ P (u b.store) := by
  induction h with
  | refl => exact absurd hP h₀
  | @tail b c hb hstep ih =>
      have hstep' : Run env ok b c := ReflTransGen.single hstep
      by_cases hbP : P b.store
      · obtain ⟨d, i, u, hd, hdb, hi, hrest⟩ := ih hbP
        exact ⟨d, i, u, hd, hdb.trans hstep', hi, hrest⟩
      · cases hstep with
        | env he => exact absurd (henv _ _ he hP) hbP
        | act hi hok => exact ⟨_, _, _, hb, hstep', ⟨_, _, _, hi⟩, hbP, hP⟩

/-- The procedure at `i` is warranted by stores among `K`. -/
def Pool.Bound (K : Set σ) (I : σ → Prop) (G : σ → σ → Prop) (W : Set σ → σ → σ → Prop)
    (Q : Unit → Set σ → Prop) (i : ℕ) (c : Pool ℓ σ ε) : Prop :=
  ∀ p, c.threads[i]? = some p → ∃ seen ⊆ K, Warranted I G W Q (fun _ _ => True) p seen

variable {W : Set σ → σ → σ → Prop} {Q : Unit → Set σ → Prop} {i : ℕ} {c₀ c : Pool ℓ σ ε}

theorem Pool.Bound.step {b : Pool ℓ σ ε} {K K' : Set σ} (hK : K ⊆ K') (hb : b.store ∈ K)
    (hc : c.store ∈ K') (hI : I b.store) (hG : ∀ t ∈ K, G t b.store) (hstep : Step env ok b c)
    (h : Bound K I G W Q i b) :
    Bound K' I G W Q i c := by
  cases hstep with
  | env he =>
      intro p hp
      obtain ⟨seen, hseen, hw⟩ := h p hp
      exact ⟨seen, hseen.trans hK, hw⟩
  | @act s T j l u k hh hj hok =>
      intro p hp
      by_cases hij : j = i
      · subst hij
        obtain ⟨seen, hseen, hw⟩ := h _ hj
        obtain ⟨-, hk⟩ := hw s hI fun t ht => hG t (hseen ht)
        have hlt : j < T.length := (List.getElem?_eq_some_iff.mp hj).1
        change (T.set j (k s))[j]? = some p at hp
        rw [List.getElem?_set_self hlt] at hp
        obtain rfl := Option.some.inj hp
        exact ⟨insert (u s) (insert s seen),
          Set.insert_subset hc (Set.insert_subset (hK hb) (hseen.trans hK)), hk⟩
      · change (T.set j (k s))[i]? = some p at hp
        rw [List.getElem?_set_ne hij] at hp
        obtain ⟨seen, hseen, hw⟩ := h p hp
        exact ⟨seen, hseen.trans hK, hw⟩

theorem Pool.Bound.run (hrun : ∀ c c', Run env ok c₀ c → Run env ok c c' →
      I c.store ∧ G c.store c'.store)
    (hT : ∀ p, c₀.threads[i]? = some p → Warranted I G W Q (fun _ _ => True) p ∅)
    (h : Run env ok c₀ c) :
    Bound (Past env ok c₀ c) I G W Q i c := by
  induction h with
  | refl => exact fun p hp => ⟨∅, Set.empty_subset _, hT p hp⟩
  | @tail b c hb hstep ih =>
      have hsub : Past env ok c₀ b ⊆ Past env ok c₀ c := Past.mono (ReflTransGen.single hstep)
      refine ih.step hsub (Past.self hb) (Past.self (hb.tail hstep)) (hrun _ _ hb .refl).1 ?_ hstep
      rintro t ⟨d, hd, hdb, rfl⟩
      exact (hrun d _ hd hdb).2

/-- Where the warrants of all procedures give `I` and `G`, and the others respect them, every run
has both. -/
theorem Pool.secured {W : ℕ → Set σ → σ → σ → Prop} {Q : ℕ → Unit → Set σ → Prop} (hI : I c₀.store)
    (hrefl : ∀ s, I s → G s s) (htrans : ∀ s t u, G s t → G t u → G s u)
    (henv : ∀ s t, I s → env s t → I t ∧ G s t)
    (hT : ∀ i p, c₀.threads[i]? = some p → Warranted I G (W i) (Q i) (fun _ _ => True) p ∅)
    (hW : ∀ i seen s t, I s → W i seen s t → I t ∧ G s t) {c' : Pool ℓ σ ε} (h : Run env ok c₀ c)
    (h' : Run env ok c c') : I c.store ∧ G c.store c'.store := by
  -- a step of a run whose procedures are bound by earlier stores is as its warrant says
  have hstep : ∀ b d : Pool ℓ σ ε, I b.store → (∀ i, Bound {t | G t b.store} I G (W i) (Q i) i b) →
      Step env ok b d → I d.store ∧ G b.store d.store := by
    intro b d hb hbound hbd
    cases hbd with
    | env he => exact henv _ _ hb he
    | @act s T j l u k hh hj hok =>
        obtain ⟨seen, hseen, hw⟩ := hbound j _ hj
        exact hW j _ _ _ hb (hw s hb fun t ht => hseen ht).1
  have hall : ∀ {d : Pool ℓ σ ε}, Run env ok c₀ d → I d.store ∧ ∀ i,
      Bound {t | G t d.store} I G (W i) (Q i) i d := by
    intro d hd
    induction hd with
    | refl => exact ⟨hI, fun i p hp => ⟨∅, Set.empty_subset _, hT i p hp⟩⟩
    | @tail b d hb hbd ih =>
        obtain ⟨hd, hbd'⟩ := hstep b d ih.1 ih.2 hbd
        exact ⟨hd, fun i => (ih.2 i).step (fun t ht => htrans _ _ _ ht hbd') (hrefl _ ih.1)
          (hrefl _ hd) ih.1 (fun t ht => ht) hbd⟩
  refine ⟨(hall h).1, ?_⟩
  induction h' with
  | refl => exact hrefl _ (hall h).1
  | @tail b d hb hbd ih =>
      obtain ⟨hIb, hbound⟩ := hall (h.trans hb)
      exact htrans _ _ _ ih (hstep b d hIb hbound hbd).2

/-- Every step of a procedure is warranted by the states that the run has passed since the procedure
began. -/
theorem Pool.warranted (hrun : ∀ c c', Run env ok c₀ c → Run env ok c c' →
      I c.store ∧ G c.store c'.store)
    (hmono : ∀ seen seen' s t, seen ⊆ seen' → W seen s t → W seen' s t)
    (hT : ∀ p, c₀.threads[i]? = some p → Warranted I G W Q (fun _ _ => True) p ∅)
    (h : Run env ok c₀ c)
    {u : σ → σ} (hi : c.Acts i u) : W (Past env ok c₀ c) c.store (u c.store) := by
  obtain ⟨l, k, hh, hi⟩ := hi
  obtain ⟨seen, hseen, hw⟩ := Bound.run hrun hT h _ hi
  have hpast : ∀ t ∈ seen, G t c.store := by
    intro t ht
    obtain ⟨d, hd, hdc, rfl⟩ := hseen ht
    exact (hrun d _ hd hdc).2
  obtain ⟨hW, -⟩ := hw c.store (hrun _ _ h .refl).1 hpast
  exact hmono _ _ _ _ (Set.insert_subset (Past.self h) hseen) hW

/-- What a procedure has returned is warranted by the states that the run has passed since the
procedure began. -/
theorem Pool.answered (hrun : ∀ c c', Run env ok c₀ c → Run env ok c c' →
      I c.store ∧ G c.store c'.store)
    (hT : ∀ p, c₀.threads[i]? = some p → Warranted I G W Q (fun _ _ => True) p ∅)
    (h : Run env ok c₀ c)
    (hi : c.threads[i]? = some (.ret ())) : ∃ seen ⊆ Past env ok c₀ c, Q () seen :=
  Bound.run hrun hT h _ hi

end Soundness

attribute [irreducible] Warranted

end Interleaving
