import SRPanel.Lib.Reads
import Mathlib.Data.List.Forall2
import Mathlib.Tactic.Abel

/-!
# Interleaved and serial runs

A `Pool` is a store and the procedures in progress on it. A step of a pool is one atomic step of one
of them, or a change by the outside world. `Safe` is the proof rule for interleavings: each
procedure owns a ghost value of a commutative monoid, the invariant speaks about the store and the
sum of all ghost values, and every atomic step re-establishes it by changing the stepping
procedure's own value only. Some steps of a run may be promised to find the store in a certain
relation to their label (`ok`); invariants are proved of the runs whose steps all meet it.

`Serial` is the coarser notion of a run in which every call runs to its end before the next starts.
-/

namespace Interleaving

open Relation (ReflTransGen)

variable {ℓ σ ε α β M : Type}

/-- A store and the procedures in progress on it. -/
structure Pool (ℓ σ ε : Type) where
  store : σ
  threads : List (Prog ℓ σ ε Unit)

namespace Pool

/-- One step of a pool: an atomic step of one procedure, or a change by the outside world. -/
inductive Step (env : σ → σ → Prop) (ok : ℓ → σ → Prop) : Pool ℓ σ ε → Pool ℓ σ ε → Prop
  | act {s : σ} {T : List (Prog ℓ σ ε Unit)} {i : ℕ} {l : ℓ} {u : σ → σ}
      {k : σ → Prog ℓ σ ε Unit} {h : ε → Prog ℓ σ ε Unit} :
      T[i]? = some (.act l u k h) → ok l s → Step env ok ⟨s, T⟩ ⟨u s, T.set i (k s)⟩
  | env {s s' : σ} {T : List (Prog ℓ σ ε Unit)} : env s s' → Step env ok ⟨s, T⟩ ⟨s', T⟩

/-- The runs of a pool. -/
def Run (env : σ → σ → Prop) (ok : ℓ → σ → Prop) : Pool ℓ σ ε → Pool ℓ σ ε → Prop :=
  ReflTransGen (Step env ok)

/-- Every procedure has ended. -/
def Done (c : Pool ℓ σ ε) : Prop := ∀ p ∈ c.threads, p.ended

instance (c : Pool ℓ σ ε) : Decidable c.Done := inferInstanceAs (Decidable (∀ p ∈ c.threads, _))

/-- A procedure that has ended stays as it is. -/
theorem Run.ended {env : σ → σ → Prop} {ok : ℓ → σ → Prop} {c c' : Pool ℓ σ ε}
    (h : Run env ok c c') {i : ℕ} {p : Prog ℓ σ ε Unit} {r : Except ε Unit}
    (hp : c.threads[i]? = some p) (hr : p.outcome = some r) :
    c'.threads[i]? = some p := by
  induction h with
  | refl => exact hp
  | tail _ hstep ih =>
      cases hstep with
      | env _ => exact ih
      | @act s T j l u k h hj _ =>
          have hne : j ≠ i := by
            rintro rfl
            obtain rfl : Prog.act l u k h = p := Option.some.inj (hj.symm.trans ih)
            cases hr
          show (T.set j (k s))[i]? = some p
          rw [List.getElem?_set_ne hne]
          exact ih

/-- Let procedure `i` take its next atomic step. -/
def advance (c : Pool ℓ σ ε) (i : ℕ) : Pool ℓ σ ε :=
  match c.threads[i]? with
  | some (.act _ u k _) => ⟨u c.store, c.threads.set i (k c.store)⟩
  | _ => c

/-- Follow a schedule: the list of the procedures that take the next steps. -/
def schedule (is : List ℕ) (c : Pool ℓ σ ε) : Pool ℓ σ ε :=
  is.foldl advance c

/-- The next step of procedure `i` is allowed. -/
def allowed (ok : ℓ → σ → Bool) (c : Pool ℓ σ ε) (i : ℕ) : Bool :=
  match c.threads[i]? with
  | some (.act l _ _ _) => ok l c.store
  | _ => true

/-- Every step of a schedule is allowed. -/
def obeys (ok : ℓ → σ → Bool) : List ℕ → Pool ℓ σ ε → Bool
  | [], _ => true
  | i :: is, c => allowed ok c i && obeys ok is (advance c i)

section Schedule

variable (env : σ → σ → Prop) {ok : ℓ → σ → Prop} [∀ l s, Decidable (ok l s)]

theorem advance_run (c : Pool ℓ σ ε) (i : ℕ) (h : allowed (fun l s => ok l s) c i) :
    Run env ok c (advance c i) := by
  unfold advance
  unfold allowed at h
  split
  · next hi => exact .single (.act hi (by simpa only [hi, decide_eq_true_eq] using h))
  · exact .refl

/-- Following a schedule whose steps are allowed is a run. -/
theorem schedule_run (is : List ℕ) (c : Pool ℓ σ ε) (h : obeys (fun l s => ok l s) is c) :
    Run env ok c (schedule is c) := by
  induction is generalizing c with
  | nil => exact .refl
  | cons i is ih =>
      rw [obeys, Bool.and_eq_true] at h
      exact (advance_run env c i h.1).trans (ih _ h.2)

theorem obeys_true (is : List ℕ) (c : Pool ℓ σ ε) : obeys (fun _ _ => True) is c := by
  induction is generalizing c with
  | nil => rfl
  | cons i is ih =>
      rw [obeys, Bool.and_eq_true]
      refine ⟨?_, ih _⟩
      unfold allowed
      split <;> rfl

/-- Following any schedule is a run without conditions. -/
theorem schedule_run_free (is : List ℕ) (c : Pool ℓ σ ε) :
    Run env (fun _ _ => True) c (schedule is c) :=
  schedule_run env is c (obeys_true is c)

end Schedule

end Pool

/-! ## The proof rule for interleavings -/

section Safe

variable [AddCommMonoid M] (ok : ℓ → σ → Prop) (I : σ → M → Prop) (G : σ → σ → Prop)

/-- From ghost value `g`, every atomic step of the procedure keeps the invariant `I` and the
guarantee `G`, whatever the ghost value `f` of the other procedures is; `Q` and `E` describe the
outcome with the ghost value left at the end. -/
def Safe (Q : α → M → Prop) (E : ε → M → Prop) : Prog ℓ σ ε α → M → Prop
  | .ret a, g => Q a g
  | .fail e, g => E e g
  | .act l u k _, g => ∀ s f, I s (g + f) → ok l s →
      G s (u s) ∧ ∃ g', I (u s) (g' + f) ∧ Safe Q E (k s) g'

variable {ok I G}
variable {Q : α → M → Prop} {E : ε → M → Prop}

theorem safe_pure {a : α} {g : M} (h : Q a g) : Safe ok I G Q E (pure a) g := h

theorem safe_throw {e : ε} {g : M} (h : E e g) : Safe ok I G Q E (throw e) g := h

theorem safe_ite {c : Prop} [Decidable c] {p q : Prog ℓ σ ε α} {g : M}
    (hp : c → Safe ok I G Q E p g) (hq : ¬c → Safe ok I G Q E q g) :
    Safe ok I G Q E (if c then p else q) g := by
  split
  · next h => exact hp h
  · next h => exact hq h

theorem safe_ofExcept {r : Except ε α} {g : M} (hQ : ∀ a, r = .ok a → Q a g)
    (hE : ∀ e, r = .error e → E e g) : Safe ok I G Q E (Prog.ofExcept r) g := by
  cases r with
  | ok a => exact hQ a rfl
  | error e => exact hE e rfl

/-- The rule for one atomic step. -/
theorem safe_step {l : ℓ} {F : σ → Except ε α × σ} {g : M}
    (h : ∀ s f, I s (g + f) → ok l s → G s (F s).2 ∧ ∃ g', I (F s).2 (g' + f) ∧
      (∀ a, (F s).1 = .ok a → Q a g') ∧ ∀ e, (F s).1 = .error e → E e g') :
    Safe ok I G Q E (Prog.step l F) g := by
  intro s f hI hok
  obtain ⟨hG, g', hI', hQ, hE⟩ := h s f hI hok
  exact ⟨hG, g', hI', safe_ofExcept hQ hE⟩

/-- A step that only reads needs no ghost value. -/
theorem safe_query {l : ℓ} {f : σ → α} {g : M} (hG : ∀ s, G s s)
    (h : ∀ s r, I s (g + r) → ok l s → Q (f s) g) : Safe ok I G Q E (Prog.query l f) g := by
  refine safe_step fun s r hI hok => ⟨hG s, g, hI, ?_, ?_⟩
  · rintro a ⟨⟩
    exact h s r hI hok
  · rintro e ⟨⟩

/-- The rule for sequencing. -/
theorem safe_bind {R : β → M → Prop} {p : Prog ℓ σ ε β} {f : β → Prog ℓ σ ε α} {g : M}
    (hp : Safe ok I G R E p g) (hf : ∀ b g', R b g' → Safe ok I G Q E (f b) g') :
    Safe ok I G Q E (p >>= f) g := by
  show Safe ok I G Q E (p.bind f) g
  induction p generalizing g with
  | ret b => exact hf b g hp
  | fail e => exact hp
  | act l u k h ih _ =>
      intro s r hI hok
      obtain ⟨hG, g', hI', hk⟩ := hp s r hI hok
      exact ⟨hG, g', hI', ih s hk⟩

/-- The rule for handlers. -/
theorem safe_attempt {F : ε → M → Prop} {p : Prog ℓ σ ε α} {H : ε → Prog ℓ σ ε α} {g : M}
    (hp : Safe ok I G Q F p g) (hH : ∀ e g', F e g' → Safe ok I G Q E (H e) g') :
    Safe ok I G Q E (p.attempt H) g := by
  induction p generalizing g with
  | ret a => exact hp
  | fail e => exact hH e g hp
  | act l u k h ih _ =>
      intro s r hI hok
      obtain ⟨hG, g', hI', hk⟩ := hp s r hI hok
      exact ⟨hG, g', hI', ih s hk⟩

theorem safe_mono {Q' : α → M → Prop} {E' : ε → M → Prop} {p : Prog ℓ σ ε α} {g : M}
    (hp : Safe ok I G Q E p g) (hQ : ∀ a g, Q a g → Q' a g) (hE : ∀ e g, E e g → E' e g) :
    Safe ok I G Q' E' p g := by
  induction p generalizing g with
  | ret a => exact hQ a g hp
  | fail e => exact hE e g hp
  | act l u k h ih _ =>
      intro s r hI hok
      obtain ⟨hG, g', hI', hk⟩ := hp s r hI hok
      exact ⟨hG, g', hI', ih s hk⟩

/-- What all results satisfy may be used of the result at hand. -/
theorem safe_yields {P : α → Prop} {p : Prog ℓ σ ε α} {g : M} (hp : Safe ok I G Q E p g)
    (hP : p.Yields P) : Safe ok I G (fun a g => Q a g ∧ P a) E p g := by
  induction hP generalizing g with
  | ret h => exact ⟨hp, h⟩
  | fail e => exact hp
  | act _ _ ih _ =>
      intro s r hI hok
      obtain ⟨hG, g', hI', hk⟩ := hp s r hI hok
      exact ⟨hG, g', hI', ih s hk⟩

/-- Nothing is asked of the errors of a procedure that always returns. -/
theorem safe_returns {E' : ε → M → Prop} {p : Prog ℓ σ ε α} {g : M} (hp : Safe ok I G Q E p g)
    (hret : p.Returns) : Safe ok I G Q E' p g := by
  induction hret generalizing g with
  | ret a => exact hp
  | act _ ih =>
      intro s r hI hok
      obtain ⟨hG, g', hI', hk⟩ := hp s r hI hok
      exact ⟨hG, g', hI', ih s hk⟩

/-- A procedure within a frame that the invariant and the guarantee allow needs no ghost value. -/
theorem safe_of_keeps {R : σ → σ → Prop} {p : Prog ℓ σ ε α} {g : M} (hp : p.Keeps R)
    (hR : ∀ s s' f, R s s' → I s f → I s' f ∧ G s s') :
    Safe ok I G (fun _ g' => g' = g) (fun _ g' => g' = g) p g := by
  induction hp with
  | ret a => rfl
  | fail e => rfl
  | act hu _ _ ih _ =>
      intro s f hI _
      obtain ⟨hI', hG⟩ := hR _ _ _ (hu s) hI
      exact ⟨hG, g, hI', ih s⟩

/-- Forgetting the outcome of a safe procedure. -/
theorem safe_void {p : Prog ℓ σ ε α} {g : M}
    (hp : Safe ok I G (fun _ _ => True) (fun _ _ => True) p g) :
    Safe ok I G (fun _ _ => True) (fun _ _ => True) p.void g := by
  have hdone : Safe ok I G (fun _ _ => True) (fun _ _ => True)
      (p.bind fun _ => Prog.ret ()) g := safe_bind hp fun _ _ _ => trivial
  exact safe_attempt hdone fun _ _ _ => trivial

end Safe

/-! ## Soundness -/

section Soundness

variable [AddCommMonoid M] {ok : ℓ → σ → Prop} {I : σ → M → Prop} {G : σ → σ → Prop}
  {env : σ → σ → Prop}

/-- Every procedure of the pool is safe from its ghost value, and the invariant holds of their sum.
-/
def Pool.Good (ok : ℓ → σ → Prop) (I : σ → M → Prop) (G : σ → σ → Prop) (c : Pool ℓ σ ε) : Prop :=
  ∃ gs : List M, List.Forall₂ (Safe ok I G (fun _ _ => True) fun _ _ => True) c.threads gs ∧
    I c.store gs.sum

/-- What the procedures own splits into what procedure `i` owns and the rest, which its steps keep.
-/
private theorem forall₂_set {R : α → β → Prop} {w : β → M} {T : List α} {bs : List β}
    (h : List.Forall₂ R T bs) {i : ℕ} {p : α} (hi : T[i]? = some p) :
    ∃ b f, R p b ∧ bs[i]? = some b ∧ (bs.map w).sum = w b + f ∧ ∀ p' b', R p' b' →
      List.Forall₂ R (T.set i p') (bs.set i b') ∧ ((bs.set i b').map w).sum = w b' + f := by
  induction h generalizing i with
  | nil => simp at hi
  | @cons a b T bs hab hT ih =>
      cases i with
      | zero =>
          obtain rfl : a = p := by simpa using hi
          exact ⟨b, (bs.map w).sum, hab, rfl, by simp, fun p' b' h' => ⟨.cons h' hT, by simp⟩⟩
      | succ i =>
          obtain ⟨c, f, hc, hget, hsum, hset⟩ := ih (by simpa using hi)
          refine ⟨c, w b + f, hc, by simpa using hget, by
            rw [List.map_cons, List.sum_cons, hsum]; abel,
            fun p' b' h' => ?_⟩
          obtain ⟨hbs', hsum'⟩ := hset p' b' h'
          exact ⟨.cons hab hbs', by
            rw [List.set_cons_succ, List.map_cons, List.sum_cons, hsum']; abel⟩

/-- A step keeps every procedure safe and the invariant of the sum, and its change of the store is
within the guarantee. -/
private theorem safe_threads_step {Q : Unit → M → Prop} {E : ε → M → Prop} {c c' : Pool ℓ σ ε}
    {gs : List M} (hT : List.Forall₂ (Safe ok I G Q E) c.threads gs) (hI : I c.store gs.sum)
    (henv : ∀ s s' g, I s g → env s s' → I s' g ∧ G s s') (h : Pool.Step env ok c c') :
    (∃ gs', List.Forall₂ (Safe ok I G Q E) c'.threads gs' ∧ I c'.store gs'.sum) ∧
      G c.store c'.store := by
  cases h with
  | env he =>
      obtain ⟨hI', hG⟩ := henv _ _ _ hI he
      exact ⟨⟨gs, hT, hI'⟩, hG⟩
  | act hi hok =>
      obtain ⟨g, f, hg, -, hsum, hset⟩ := forall₂_set (w := id) hT hi
      rw [List.map_id] at hsum
      obtain ⟨hG, g', hI', hk⟩ := hg _ f (hsum ▸ hI) hok
      obtain ⟨hgs', hsum'⟩ := hset _ g' hk
      rw [List.map_id] at hsum'
      exact ⟨⟨_, hgs', by rw [hsum']; exact hI'⟩, hG⟩

/-- A step keeps the pool good, and its change of the store is within the guarantee. -/
theorem Pool.Good.step {c c' : Pool ℓ σ ε} (hc : c.Good ok I G)
    (henv : ∀ s s' g, I s g → env s s' → I s' g ∧ G s s') (h : Pool.Step env ok c c') :
    c'.Good ok I G ∧ G c.store c'.store := by
  obtain ⟨gs, hT, hI⟩ := hc
  exact safe_threads_step hT hI henv h

theorem Pool.Good.run {c c' : Pool ℓ σ ε} (hc : c.Good ok I G)
    (henv : ∀ s s' g, I s g → env s s' → I s' g ∧ G s s') (h : Pool.Run env ok c c') :
    c'.Good ok I G := by
  induction h with
  | refl => exact hc
  | tail _ hstep ih => exact (ih.step henv hstep).1

/-- A reflexive and transitive guarantee holds between any two states of a run. -/
theorem Pool.Good.guarantee {c c' : Pool ℓ σ ε} (hc : c.Good ok I G)
    (henv : ∀ s s' g, I s g → env s s' → I s' g ∧ G s s') (hrefl : ∀ s, G s s)
    (htrans : ∀ s₁ s₂ s₃, G s₁ s₂ → G s₂ s₃ → G s₁ s₃) (h : Pool.Run env ok c c') :
    G c.store c'.store := by
  induction h with
  | refl => exact hrefl _
  | tail hrun hstep ih => exact htrans _ _ _ ih ((hc.run henv hrun).step henv hstep).2

/-- A pool of procedures that are safe without a ghost value is good. -/
theorem Pool.Good.of_safe {s : σ} {T : List (Prog ℓ σ ε Unit)} (hI : I s 0)
    (hT : ∀ p ∈ T, Safe ok I G (fun _ _ => True) (fun _ _ => True) p 0) :
    (⟨s, T⟩ : Pool ℓ σ ε).Good ok I G := by
  refine ⟨T.map fun _ => 0, ?_, by simpa using hI⟩
  rw [List.forall₂_map_right_iff]
  exact List.forall₂_same.mpr hT

/-- The invariant without the ghost values of a good pool. -/
theorem Pool.Good.inv {c : Pool ℓ σ ε} (hc : c.Good ok I G) : ∃ g, I c.store g :=
  let ⟨gs, _, hI⟩ := hc
  ⟨gs.sum, hI⟩

/-! ### Procedures that end without a ghost value -/

/-- Every procedure of the pool is safe from its ghost value and ends without one, and the invariant
holds of their sum. -/
def Pool.Clears (ok : ℓ → σ → Prop) (I : σ → M → Prop) (G : σ → σ → Prop) (c : Pool ℓ σ ε) : Prop :=
  ∃ gs : List M, List.Forall₂ (Safe ok I G (fun _ g => g = 0) fun _ g => g = 0) c.threads gs ∧
    I c.store gs.sum

theorem Pool.Clears.run {c c' : Pool ℓ σ ε} (hc : c.Clears ok I G)
    (henv : ∀ s s' g, I s g → env s s' → I s' g ∧ G s s') (h : Pool.Run env ok c c') :
    c'.Clears ok I G := by
  induction h with
  | refl => exact hc
  | tail _ hstep ih =>
      obtain ⟨gs, hT, hI⟩ := ih
      exact (safe_threads_step hT hI henv hstep).1

theorem Pool.Clears.of_safe {s : σ} {T : List (Prog ℓ σ ε Unit)} (hI : I s 0)
    (hT : ∀ p ∈ T, Safe ok I G (fun _ g => g = 0) (fun _ g => g = 0) p 0) :
    (⟨s, T⟩ : Pool ℓ σ ε).Clears ok I G := by
  refine ⟨T.map fun _ => 0, ?_, by simpa using hI⟩
  rw [List.forall₂_map_right_iff]
  exact List.forall₂_same.mpr hT

theorem Pool.Clears.inv {c : Pool ℓ σ ε} (hc : c.Clears ok I G) : ∃ g, I c.store g :=
  let ⟨gs, _, hI⟩ := hc
  ⟨gs.sum, hI⟩

/-- Once every procedure has ended, no ghost value is left. -/
theorem Pool.Clears.done {c : Pool ℓ σ ε} (hc : c.Clears ok I G) (hdone : c.Done) :
    I c.store 0 := by
  obtain ⟨gs, hT, hI⟩ := hc
  suffices h : gs.sum = 0 from h ▸ hI
  clear hI
  unfold Pool.Done at hdone
  generalize c.threads = T at hT hdone
  induction hT with
  | nil => rfl
  | @cons p g T gs hp _ ih =>
      have hg : g = 0 := by
        have hended := hdone p List.mem_cons_self
        cases p with
        | ret a => exact hp
        | fail e => exact hp
        | act l u k h => cases hended
      rw [List.sum_cons, hg, zero_add]
      exact ih fun q hq => hdone q (List.mem_cons_of_mem p hq)

/-! ### Procedures that answer for calls -/

variable {κ : Type}

/-- Every procedure of the pool is safe from its ghost value and ends with what its call promises
for the way it ends, and the invariant holds of the sum of the ghost values. -/
def Pool.Serves (ok : ℓ → σ → Prop) (I : σ → M → Prop) (G : σ → σ → Prop)
    (promise : κ → Except ε Unit → M → Prop) (calls : List κ) (c : Pool ℓ σ ε) : Prop :=
  ∃ owned : List (κ × M), owned.map Prod.fst = calls ∧ I c.store (owned.map Prod.snd).sum ∧
    List.Forall₂ (fun p o => Safe ok I G (fun a => promise o.1 (.ok a))
      (fun e => promise o.1 (.error e)) p o.2) c.threads owned

theorem Pool.Serves.step {promise : κ → Except ε Unit → M → Prop} {calls : List κ}
    {c c' : Pool ℓ σ ε} (hc : c.Serves ok I G promise calls)
    (henv : ∀ s s' g, I s g → env s s' → I s' g)
    (h : Pool.Step env ok c c') : c'.Serves ok I G promise calls := by
  obtain ⟨owned, hcalls, hI, hT⟩ := hc
  cases h with
  | env he => exact ⟨owned, hcalls, henv _ _ _ hI he, hT⟩
  | @act s T i l u k h hi hok =>
      obtain ⟨⟨call, g⟩, f, hg, hget, hsum, hset⟩ := forall₂_set (w := Prod.snd) hT hi
      obtain ⟨-, g', hI', hk⟩ := hg _ f (hsum ▸ hI) hok
      obtain ⟨howned, hsum'⟩ := hset _ (call, g') hk
      refine ⟨owned.set i (call, g'), ?_, by rw [hsum']; exact hI', howned⟩
      obtain ⟨hlt, hval⟩ := List.getElem?_eq_some_iff.mp hget
      have hlt' : i < (owned.map Prod.fst).length := by simpa using hlt
      have hfst : (owned.map Prod.fst)[i] = call := by rw [List.getElem_map, hval]
      rw [List.map_set, ← hcalls, ← hfst, List.set_getElem_self]

theorem Pool.Serves.run {promise : κ → Except ε Unit → M → Prop} {calls : List κ}
    {c c' : Pool ℓ σ ε} (hc : c.Serves ok I G promise calls)
    (henv : ∀ s s' g, I s g → env s s' → I s' g)
    (h : Pool.Run env ok c c') : c'.Serves ok I G promise calls := by
  induction h with
  | refl => exact hc
  | tail _ hstep ih => exact ih.step henv hstep

/-- A pool of calls that are safe without a ghost value. -/
theorem Pool.Serves.of_safe {promise : κ → Except ε Unit → M → Prop} {calls : List κ}
    {task : κ → Prog ℓ σ ε Unit} {s : σ} (hI : I s 0)
    (hT : ∀ c ∈ calls, Safe ok I G (fun a => promise c (.ok a)) (fun e => promise c (.error e))
      (task c) 0) :
    (⟨s, calls.map task⟩ : Pool ℓ σ ε).Serves ok I G promise calls := by
  refine ⟨calls.map fun c => (c, 0), by rw [List.map_map]; exact List.map_id _, ?_, ?_⟩
  · simpa [Function.comp_def] using hI
  · rw [List.forall₂_map_left_iff, List.forall₂_map_right_iff]
    exact List.forall₂_same.mpr hT

/-- A procedure that has ended has what its call promises, and the others have the rest. -/
theorem Pool.Serves.ended {promise : κ → Except ε Unit → M → Prop} {calls : List κ} {c : Pool ℓ σ ε}
    (hc : c.Serves ok I G promise calls) {i : ℕ} {call : κ} {p : Prog ℓ σ ε Unit}
    {r : Except ε Unit}
    (hcall : calls[i]? = some call) (hp : c.threads[i]? = some p) (hr : p.outcome = some r) :
    ∃ g f, promise call r g ∧ I c.store (g + f) := by
  obtain ⟨owned, rfl, hI, hT⟩ := hc
  obtain ⟨⟨call', g⟩, f, hsafe, hget, hsum, -⟩ := forall₂_set (w := Prod.snd) hT hp
  obtain rfl : call' = call := by simpa [hget] using hcall
  refine ⟨g, f, ?_, hsum ▸ hI⟩
  cases p with
  | ret a =>
      obtain rfl : r = .ok a := (Option.some.inj hr).symm
      exact hsafe
  | fail e =>
      obtain rfl : r = .error e := (Option.some.inj hr).symm
      exact hsafe
  | act l u k h => cases hr

/-- Once every procedure has ended, each has what its call promises. -/
theorem Pool.Serves.done {promise : κ → Except ε Unit → M → Prop} {calls : List κ} {c : Pool ℓ σ ε}
    (hc : c.Serves ok I G promise calls) (hdone : c.Done) :
    ∃ owned : List (κ × M), owned.map Prod.fst = calls ∧ I c.store (owned.map Prod.snd).sum ∧
      List.Forall₂ (fun p o => ∃ r,
        Prog.outcome p = some r ∧ promise o.1 r o.2) c.threads owned := by
  obtain ⟨owned, hcalls, hI, hT⟩ := hc
  refine ⟨owned, hcalls, hI, ?_⟩
  unfold Pool.Done at hdone
  clear hI hcalls
  generalize c.threads = T at hT hdone
  induction hT with
  | nil => exact .nil
  | @cons p o T owned hp _ ih =>
      refine .cons ?_ (ih fun q hq => hdone q (List.mem_cons_of_mem p hq))
      have hended := hdone p List.mem_cons_self
      cases p with
      | ret a => exact ⟨.ok a, rfl, hp⟩
      | fail e => exact ⟨.error e, rfl, hp⟩
      | act l u k h => cases hended

end Soundness

attribute [irreducible] Safe

/-! ## Serial runs -/

namespace Serial

variable {κ : Type}

/-- One call runs alone to its end, or the outside world changes the store. -/
inductive Step (call : κ → Prog ℓ σ ε Unit) (env : σ → σ → Prop) (ok : κ → σ → Prop) : σ → σ → Prop
  | call {s : σ} (c : κ) : ok c s → Step call env ok s ((call c).run s).2
  | env {s s' : σ} : env s s' → Step call env ok s s'

/-- Runs of calls that do not overlap. -/
def Run (call : κ → Prog ℓ σ ε Unit) (env : σ → σ → Prop) (ok : κ → σ → Prop) : σ → σ → Prop :=
  ReflTransGen (Step call env ok)

variable {call : κ → Prog ℓ σ ε Unit} {env : σ → σ → Prop} {ok : κ → σ → Prop}

/-- What every call and every outside change keeps holds after a run. -/
theorem Run.invariant {I : σ → Prop} {s s' : σ} (h : Run call env ok s s') (h0 : I s)
    (hcall : ∀ c s, I s → ok c s → I ((call c).run s).2) (henv : ∀ s s', I s → env s s' → I s') :
    I s' := by
  induction h with
  | refl => exact h0
  | tail _ hstep ih =>
      cases hstep with
      | call c hok => exact hcall c _ ih hok
      | env he => exact henv _ _ ih he

/-- The run that makes the given calls in order. -/
def calls (call : κ → Prog ℓ σ ε Unit) (cs : List κ) (s : σ) : σ :=
  cs.foldl (fun s c => ((call c).run s).2) s

theorem calls_run (env : σ → σ → Prop) (cs : List κ) (s : σ) :
    Run call env (fun _ _ => True) s (calls call cs s) := by
  induction cs generalizing s with
  | nil => exact .refl
  | cons c cs ih => exact .head (.call c trivial) (ih _)

end Serial

end Interleaving
