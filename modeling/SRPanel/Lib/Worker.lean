import SRPanel.Lib.Prog

/-!
# One worker amid others

A worker takes up jobs one after the other, while others change the store between any two of its
steps. A step of the job can throw, before or after it has taken effect, and the worker can die
between two steps; `cut` is the note that the store takes of it. The others are given by the atomic
changes that they can make.

`Steers` is the proof rule for such jobs: a precondition with a rule for each way to build a job. An
assertion at a point of the job has to be stable, that is, kept by every change of the others.
-/

namespace Interleaving

open Relation (ReflTransGen)

variable {ℓ σ ε α β ι : Type}

/-! ## What procedures do -/

/-- The update is one of the atomic steps of the procedure. -/
inductive Prog.Does : Prog ℓ σ ε α → (σ → σ) → Prop
  | here {l : ℓ} {u : σ → σ} {k : σ → Prog ℓ σ ε α} {h : ε → Prog ℓ σ ε α} : Does (.act l u k h) u
  | next {l : ℓ} {u v : σ → σ} {k : σ → Prog ℓ σ ε α} {h : ε → Prog ℓ σ ε α} (s : σ) :
      Does (k s) v → Does (.act l u k h) v
  | caught {l : ℓ} {u v : σ → σ} {k : σ → Prog ℓ σ ε α} {h : ε → Prog ℓ σ ε α} (e : ε) :
      Does (h e) v → Does (.act l u k h) v

/-- Within a frame is every step within it. -/
theorem Prog.Keeps.does {R : σ → σ → Prop} {p : Prog ℓ σ ε α} (hp : p.Keeps R) {v : σ → σ}
    (h : p.Does v) (s : σ) : R s (v s) := by
  induction h with
  | here =>
      cases hp with
      | act hu _ _ => exact hu s
  | next s' _ ih =>
      cases hp with
      | act _ hk _ => exact ih (hk s')
  | caught e _ ih =>
      cases hp with
      | act _ _ hh => exact ih (hh e)

/-- A lone run is a row of such steps. -/
theorem Prog.run_does (p : Prog ℓ σ ε α) (s : σ) :
    ReflTransGen (fun s t => ∃ u, p.Does u ∧ t = u s) s (p.run s).2 := by
  induction p generalizing s with
  | ret a => exact .refl
  | fail e => exact .refl
  | act l u k h ih _ =>
      have hrest := ih s (u s)
      refine .head ⟨u, .here, rfl⟩ ?_
      show ReflTransGen _ (u s) ((k s).run (u s)).2
      generalize ((k s).run (u s)).2 = t at hrest
      induction hrest with
      | refl => exact .refl
      | tail _ hstep ih' =>
          obtain ⟨v, hv, rfl⟩ := hstep
          exact ih'.tail ⟨v, .next s hv, rfl⟩

/-! ## Runs -/

/-- A store and the job in progress on it. -/
structure Worker (ℓ σ ε : Type) where
  store : σ
  job : Option (Prog ℓ σ ε Unit)

namespace Worker

/-- One step: a change by others, the start of a job, an atomic step of the job, a step of it that
throws before or after it has taken effect, the end of the job, or its death. -/
inductive Step (env : σ → σ → Prop) (jobs : Prog ℓ σ ε Unit → Prop) (cut : σ → σ) :
    Worker ℓ σ ε → Worker ℓ σ ε → Prop
  | env {s s' : σ} {j : Option (Prog ℓ σ ε Unit)} : env s s' → Step env jobs cut ⟨s, j⟩ ⟨s', j⟩
  | start {s : σ} {p : Prog ℓ σ ε Unit} : jobs p → Step env jobs cut ⟨s, none⟩ ⟨s, some p⟩
  | act {s : σ} {l : ℓ} {u : σ → σ} {k : σ → Prog ℓ σ ε Unit} {h : ε → Prog ℓ σ ε Unit} :
      Step env jobs cut ⟨s, some (.act l u k h)⟩ ⟨u s, some (k s)⟩
  | throws {s : σ} {l : ℓ} {u : σ → σ} {k : σ → Prog ℓ σ ε Unit} {h : ε → Prog ℓ σ ε Unit} (e : ε) :
      Step env jobs cut ⟨s, some (.act l u k h)⟩ ⟨cut s, some (h e)⟩
  | throwsLate {s : σ} {l : ℓ} {u : σ → σ} {k : σ → Prog ℓ σ ε Unit} {h : ε →
      Prog ℓ σ ε Unit} (e : ε) : Step env jobs cut ⟨s, some (.act l u k h)⟩ ⟨cut (u s), some (h e)⟩
  | ends {s : σ} {p : Prog ℓ σ ε Unit} : p.ended → Step env jobs cut ⟨s, some p⟩ ⟨s, none⟩
  | dies {s : σ} {p : Prog ℓ σ ε Unit} : Step env jobs cut ⟨s, some p⟩ ⟨cut s, none⟩

/-- The runs of a worker. -/
def Run (env : σ → σ → Prop) (jobs : Prog ℓ σ ε Unit → Prop) (cut : σ → σ) :
    Worker ℓ σ ε → Worker ℓ σ ε → Prop :=
  ReflTransGen (Step env jobs cut)

theorem Run.env {env : σ → σ → Prop} {jobs : Prog ℓ σ ε Unit → Prop} {cut : σ → σ} {s s' : σ}
    (h : ReflTransGen env s s') (j : Option (Prog ℓ σ ε Unit)) :
    Run env jobs cut ⟨s, j⟩ ⟨s', j⟩ := by
  induction h with
  | refl => exact .refl
  | tail _ hstep ih => exact ih.tail (.env hstep)

/-- A whole job, alone. -/
theorem Run.job {env : σ → σ → Prop} {jobs : Prog ℓ σ ε Unit → Prop} {cut : σ → σ}
    {p : Prog ℓ σ ε Unit} (hp : jobs p) (s : σ) :
    Run env jobs cut ⟨s, none⟩ ⟨(p.run s).2, none⟩ := by
  have hwork : ∀ (p : Prog ℓ σ ε Unit) (s : σ),
      Run env jobs cut ⟨s, some p⟩ ⟨(p.run s).2, none⟩ := by
    intro p
    induction p with
    | ret a => exact fun s => .single (.ends rfl)
    | fail e => exact fun s => .single (.ends rfl)
    | act l u k h ih _ => exact fun s => .head .act (ih s (u s))
  exact .head (.start hp) (hwork p s)

end Worker

/-! ## The proof rule -/

/-- The changes of others keep the assertion. -/
def Stable (env : σ → σ → Prop) (A : σ → Prop) : Prop := ∀ s t, env s t → A s → A t

theorem Stable.star {env : σ → σ → Prop} {A : σ → Prop} (hA : Stable env A) {s t : σ}
    (h : ReflTransGen env s t) (hs : A s) : A t := by
  induction h with
  | refl => exact hs
  | tail _ hstep ih => exact hA _ _ hstep ih

section Steers

variable (env : σ → σ → Prop) (cut : σ → σ) (I : σ → Prop)

/-- From the store `s` on, amid changes of others: whenever the job is cut short, `I` holds; `Q`
holds of a result and `E` of an error, with the store. -/
def Steers (Q : α → σ → Prop) (E : ε → σ → Prop) : Prog ℓ σ ε α → σ → Prop
  | .ret a, s => Q a s
  | .fail e, s => E e s
  | .act _ u k h, s => ∀ t, ReflTransGen env s t → I (cut t) ∧ Steers Q E (k t) (u t) ∧
      (∀ e, Steers Q E (h e) (cut t)) ∧ ∀ e, Steers Q E (h e) (cut (u t))

variable {env cut I}
variable {Q : α → σ → Prop} {E : ε → σ → Prop} {s : σ}

theorem steers_pure {a : α} (h : Q a s) : Steers env cut I Q E (pure a : Prog ℓ σ ε α) s := h

theorem steers_ite {c : Prop} [Decidable c] {p q : Prog ℓ σ ε α} (hp : c → Steers env cut I Q E p s)
    (hq : ¬c → Steers env cut I Q E q s) : Steers env cut I Q E (if c then p else q) s := by
  split
  · next h => exact hp h
  · next h => exact hq h

theorem steers_ofExcept {r : Except ε α} (hQ : ∀ a, r = .ok a → Q a s)
    (hE : ∀ e, r = .error e → E e s) : Steers env cut I Q E (Prog.ofExcept r : Prog ℓ σ ε α) s := by
  cases r with
  | ok a => exact hQ a rfl
  | error e => exact hE e rfl

/-- The rule for one atomic step that is begun under a stable assertion. -/
theorem steers_step {A : σ → Prop} (hA : Stable env A) {l : ℓ} {F : σ → Except ε α × σ} (hs : A s)
    (h : ∀ t, A t → I (cut t) ∧ (∀ e, E e (cut t)) ∧ (∀ e, E e (cut (F t).2)) ∧
      (∀ a, (F t).1 = .ok a → Q a (F t).2) ∧ ∀ e, (F t).1 = .error e → E e (F t).2) :
    Steers env cut I Q E (Prog.step l F) s := by
  intro t hst
  obtain ⟨hI, hE, hE', hok, herr⟩ := h t (hA.star hst hs)
  exact ⟨hI, steers_ofExcept hok herr, hE, hE'⟩

/-- The rule for sequencing. -/
theorem steers_bind {P : β → σ → Prop} {p : Prog ℓ σ ε β} {f : β → Prog ℓ σ ε α}
    (hp : Steers env cut I P E p s) (hf : ∀ b t, P b t → Steers env cut I Q E (f b) t) :
    Steers env cut I Q E (p >>= f) s := by
  show Steers env cut I Q E (p.bind f) s
  induction p generalizing s with
  | ret b => exact hf b s hp
  | fail e => exact hp
  | act l u k h ihk ihh =>
      intro t hst
      obtain ⟨hI, hk, hh, hh'⟩ := hp t hst
      exact ⟨hI, ihk t hk, fun e => ihh e (hh e), fun e => ihh e (hh' e)⟩

/-- The rule for handlers. -/
theorem steers_attempt {E' : ε → σ → Prop} {p : Prog ℓ σ ε α} {H : ε → Prog ℓ σ ε α}
    (hp : Steers env cut I Q E' p s) (hH : ∀ e t, E' e t → Steers env cut I Q E (H e) t) :
    Steers env cut I Q E (p.attempt H) s := by
  induction p generalizing s with
  | ret a => exact hp
  | fail e => exact hH e s hp
  | act l u k h ihk ihh =>
      intro t hst
      obtain ⟨hI, hk, hh, hh'⟩ := hp t hst
      exact ⟨hI, ihk t hk, fun e => ihh e (hh e), fun e => ihh e (hh' e)⟩

/-- Two things that a job steers to. -/
theorem steers_and {I' : σ → Prop} {Q' : α → σ → Prop} {E' : ε → σ → Prop} {p : Prog ℓ σ ε α}
    (hp : Steers env cut I Q E p s) (hp' : Steers env cut I' Q' E' p s) :
    Steers env cut (fun t => I t ∧ I' t) (fun a t => Q a t ∧ Q' a t)
      (fun e t => E e t ∧ E' e t) p s := by
  induction p generalizing s with
  | ret a => exact ⟨hp, hp'⟩
  | fail e => exact ⟨hp, hp'⟩
  | act l u k h ihk ihh =>
      intro t hst
      obtain ⟨hI, hk, hh, hl⟩ := hp t hst
      obtain ⟨hI', hk', hh', hl'⟩ := hp' t hst
      exact ⟨⟨hI, hI'⟩, ihk t hk hk', fun e => ihh e (hh e) (hh' e), fun e => ihh e (hl e) (hl' e)⟩

/-- A read before the rest of a job, under a stable assertion. -/
theorem steers_read {A : σ → Prop} (hA : Stable env A) {l : ℓ} {g : σ → β}
    {f : β → Prog ℓ σ ε α} (hs : A s) (hcut : ∀ t, A t → I (cut t) ∧ ∀ e, E e (cut t))
    (hf : ∀ t, A t → Steers env cut I Q E (f (g t)) t) :
    Steers env cut I Q E (Prog.query l g >>= f) s := by
  intro t hst
  have ht := hA.star hst hs
  obtain ⟨hI, hE⟩ := hcut t ht
  exact ⟨hI, hf t ht, hE, hE⟩

/-- The rule for a loop, with an assertion about what is left of the list. -/
theorem steers_forEach {A : List ι → σ → Prop} {body : ι → Prog ℓ σ ε Unit}
    {loop : List ι → Prog ℓ σ ε Unit} (hnil : loop [] = pure ())
    (hcons : ∀ x xs, loop (x :: xs) = body x >>= fun _ => loop xs)
    (hbody : ∀ x xs s, A (x :: xs) s → Steers env cut I (fun _ t => A xs t) E (body x) s)
    (xs : List ι)
    (hs : A xs s) : Steers env cut I (fun _ t => A [] t) E (loop xs) s := by
  induction xs generalizing s with
  | nil =>
      rw [hnil]
      exact steers_pure hs
  | cons x xs ih =>
      rw [hcons]
      exact steers_bind (hbody x xs s hs) fun _ t ht => ih ht

end Steers

/-! ## Soundness -/

section Soundness

variable {env : σ → σ → Prop} {jobs : Prog ℓ σ ε Unit → Prop} {cut : σ → σ} {I : σ → Prop}

/-- Between jobs the invariant holds, and a job in progress steers to it. -/
def Worker.Good (env : σ → σ → Prop) (cut : σ → σ) (I : σ → Prop) (w : Worker ℓ σ ε) : Prop :=
  match w.job with
  | none => I w.store
  | some p => ∃ s, ReflTransGen env s w.store ∧
    Steers env cut I (fun _ t => I t) (fun _ t => I t) p s

theorem Worker.Good.step {w w' : Worker ℓ σ ε} (hI : Stable env I) (hcut : ∀ s, I s → I (cut s))
    (hjobs : ∀ p, jobs p → ∀ s, I s → Steers env cut I (fun _ t => I t) (fun _ t => I t) p s)
    (hw : w.Good env cut I) (h : Worker.Step env jobs cut w w') : w'.Good env cut I := by
  cases h with
  | @env s s' j he =>
      cases j with
      | none => exact hI _ _ he hw
      | some p =>
          obtain ⟨s₀, hs, hp⟩ := hw
          exact ⟨s₀, hs.tail he, hp⟩
  | start hp => exact ⟨_, .refl, hjobs _ hp _ hw⟩
  | act =>
      obtain ⟨s₀, hs, hp⟩ := hw
      exact ⟨_, .refl, (hp _ hs).2.1⟩
  | throws e =>
      obtain ⟨s₀, hs, hp⟩ := hw
      exact ⟨_, .refl, (hp _ hs).2.2.1 e⟩
  | throwsLate e =>
      obtain ⟨s₀, hs, hp⟩ := hw
      exact ⟨_, .refl, (hp _ hs).2.2.2 e⟩
  | @ends s p hended =>
      obtain ⟨s₀, hs, hp⟩ := hw
      cases p with
      | ret a => exact hI.star hs hp
      | fail e => exact hI.star hs hp
      | act l u k h => cases hended
  | @dies s p =>
      obtain ⟨s₀, hs, hp⟩ := hw
      cases p with
      | ret a => exact hcut _ (hI.star hs hp)
      | fail e => exact hcut _ (hI.star hs hp)
      | act l u k h => exact (hp _ hs).1

/-- The invariant holds whenever the worker is idle, and would hold if its job were cut short. -/
theorem Worker.Run.invariant {w w' : Worker ℓ σ ε} (h : Worker.Run env jobs cut w w')
    (hI : Stable env I) (hcut : ∀ s, I s → I (cut s))
    (hjobs : ∀ p, jobs p → ∀ s, I s → Steers env cut I (fun _ t => I t) (fun _ t => I t) p s)
    (hidle : w.job = none) (h0 : I w.store) : (w'.job = none → I w'.store) ∧ I (cut w'.store) := by
  have hgood : w'.Good env cut I := by
    induction h with
    | refl =>
        unfold Worker.Good
        rw [hidle]
        exact h0
    | tail _ hstep ih => exact ih.step hI hcut hjobs hstep
  obtain ⟨s, j⟩ := w'
  cases j with
  | none => exact ⟨fun _ => hgood, hcut _ hgood⟩
  | some p =>
      refine ⟨fun h => (by cases h), ?_⟩
      exact Good.step hI hcut hjobs hgood .dies

end Soundness

attribute [irreducible] Steers

end Interleaving
