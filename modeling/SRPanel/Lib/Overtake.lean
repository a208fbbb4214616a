import SRPanel.Lib.Amid
import SRPanel.Lib.Pool

/-!
# Runs in which no writer is overtaken

A procedure that looks at something, decides and writes later can be overtaken: by the time it
writes, another procedure has changed what it looked at. `Undisturbed` are the runs of a pool in
which a procedure that has been overtaken does not change it. `Upright` is the proof rule for them:
a procedure that finds what is watched as it was at its own first step changes it once, within the
invariant.
-/

namespace Interleaving

variable {ℓ σ ε α β κ : Type}

/-- What is watched is the same in both stores. -/
def Same (obs : σ → κ) (s t : σ) : Prop := obs t = obs s

theorem Same.refl {obs : σ → κ} (s : σ) : Same obs s s := rfl

theorem Same.trans {obs : σ → κ} (s₁ s₂ s₃ : σ) (h : Same obs s₁ s₂) (h' : Same obs s₂ s₃) :
    Same obs s₁ s₃ :=
  Eq.trans h' h

/-! ## The runs -/

/-- How a procedure stands to what is watched. -/
inductive Watch
  /-- it has not taken a step -/
  | idle
  /-- no other procedure has changed what is watched since its first step -/
  | fresh
  | overtaken
  deriving DecidableEq

open Classical in
/-- The procedures after a step of procedure `i`, which may have changed what is watched. -/
noncomputable def watched (w : ℕ → Watch) (i : ℕ) (changed : Prop) (j : ℕ) : Watch :=
  if j = i then if w i = .idle then .fresh else w i
  else if changed ∧ w j = .fresh then .overtaken else w j

/-- The runs of a pool in which no procedure changes what is watched after another one has changed
it since its own first step. -/
inductive Pool.Undisturbed (obs : σ → κ) (env : σ → σ → Prop) (c₀ : Pool ℓ σ ε) :
    Pool ℓ σ ε → (ℕ → Watch) → Prop
  | start : Undisturbed obs env c₀ c₀ fun _ => .idle
  | act {s : σ} {T : List (Prog ℓ σ ε Unit)} {w : ℕ → Watch} {i : ℕ} {l : ℓ} {u : σ → σ}
      {k : σ → Prog ℓ σ ε Unit} {h : ε → Prog ℓ σ ε Unit} :
      Undisturbed obs env c₀ ⟨s, T⟩ w → T[i]? = some (.act l u k h) →
        (w i = .overtaken → Same obs s (u s)) →
        Undisturbed obs env c₀ ⟨u s, T.set i (k s)⟩ (watched w i (¬Same obs s (u s)))
  | env {s s' : σ} {T : List (Prog ℓ σ ε Unit)} {w : ℕ → Watch} :
      Undisturbed obs env c₀ ⟨s, T⟩ w → env s s' → Undisturbed obs env c₀ ⟨s', T⟩ w

variable {obs : σ → κ} {env : σ → σ → Prop}

/-- A procedure that has not been overtaken may take any number of steps in a row. Those that have
not begun still have not. -/
theorem Pool.Undisturbed.turn {c₀ c : Pool ℓ σ ε} {w : ℕ → Watch} {i : ℕ}
    (h : Pool.Undisturbed obs env c₀ c w) (hi : w i ≠ .overtaken) (n : ℕ) :
    ∃ w', Pool.Undisturbed obs env c₀ (Pool.schedule (List.replicate n i) c) w' ∧
      ∀ j, j ≠ i → w j = .idle → w' j = .idle := by
  induction n generalizing c w with
  | zero => exact ⟨w, h, fun _ _ hj => hj⟩
  | succ n ih =>
      rw [List.replicate_succ, Pool.schedule, List.foldl_cons]
      obtain ⟨s, T⟩ := c
      unfold Pool.advance
      split
      · next u k _ hact =>
          have hstep := h.act hact fun ho => absurd ho hi
          have hnot : watched w i (¬Same obs s (u s)) i ≠ .overtaken := by
            rw [watched, if_pos rfl]
            split
            · exact fun h => by cases h
            · exact hi
          obtain ⟨w', hrun, hidle⟩ := ih hstep hnot
          refine ⟨w', hrun, fun j hj hw => hidle j hj ?_⟩
          rw [watched, if_neg hj, hw, if_neg fun hc => by cases hc.2]
      · exact ih h hi

/-! ## The rule -/

section Rule

variable (obs) (J : σ → Prop) (P : κ → Prop)

/-- From the store `s` on, as long as nobody else changes what is watched: the procedure changes it
at most once, and then to something that satisfies `P`. -/
def Upright : Prog ℓ σ ε α → σ → Prop
  | .ret _, _ => True
  | .fail _, _ => True
  | .act _ u k _, s => ∀ t, Same obs s t → J t → P (obs t) →
      (Same obs t (u t) ∧ Upright (k t) (u t)) ∨ (P (obs (u t)) ∧ (k t).Keeps (Same obs))

variable {obs J P} {s s' : σ}

/-- Only what is watched matters of the store that the procedure has seen. -/
theorem Upright.same {p : Prog ℓ σ ε α} (h : Upright obs J P p s) (hs : Same obs s s') :
    Upright obs J P p s' := by
  cases p with
  | ret a => trivial
  | fail e => trivial
  | act l u k _ => exact fun t ht hJ hP => h t (Same.trans _ _ _ hs ht) hJ hP

/-- A procedure that leaves alone what is watched. -/
theorem upright_of_keeps {p : Prog ℓ σ ε α} (h : p.Keeps (Same obs)) : Upright obs J P p s := by
  induction h generalizing s with
  | ret a => trivial
  | fail e => trivial
  | act hu _ _ ih _ => exact fun t _ _ _ => .inl ⟨hu t, ih t⟩

/-- A part that leaves alone what is watched, before the rest. -/
theorem upright_bind {p : Prog ℓ σ ε β} {f : β → Prog ℓ σ ε α} (hp : p.Keeps (Same obs))
    (hf : Amid (Same obs) (fun b t => Upright obs J P (f b) t) (fun _ _ => True) p s) :
    Upright obs J P (p >>= f) s := by
  show Upright obs J P (p.bind f) s
  induction hp generalizing s with
  | ret b => exact hf.of_ret (Same.refl s)
  | fail e => trivial
  | act hu _ _ ih _ => exact fun t ht _ _ => .inl ⟨hu t, ih t (hf.of_act ht)⟩

/-- The step that changes what is watched. -/
theorem upright_change {l : ℓ} {F : σ → Except ε β × σ} {f : β → Prog ℓ σ ε α}
    (h : ∀ t, Same obs s t → J t → P (obs t) → P (obs (F t).2)) (hf : ∀ b, (f b).Keeps (Same obs)) :
    Upright obs J P (Prog.step l F >>= f) s := by
  intro t ht hJ hP
  refine .inr ⟨h t ht hJ hP, ?_⟩
  show ((Prog.ofExcept (F t).1).bind f).Keeps (Same obs)
  rcases (F t).1 with e | b
  · exact .fail e
  · exact hf b

/-- Forgetting the outcome. -/
theorem upright_void {p : Prog ℓ σ ε α} (hp : Upright obs J P p s) : Upright obs J P p.void s := by
  have hret : ∀ p : Prog ℓ σ ε α, p.Keeps (Same obs) → p.void.Keeps (Same obs) := fun p hp =>
    Prog.keeps_attempt (Prog.keeps_bind hp fun _ => Prog.keeps_pure ()) fun _ => Prog.keeps_pure ()
  induction p generalizing s with
  | ret a => trivial
  | fail e => trivial
  | act l u k h ih _ =>
      intro t ht hJ hP
      rcases hp t ht hJ hP with ⟨hsame, hk⟩ | ⟨hchange, hk⟩
      · exact .inl ⟨hsame, ih t hk⟩
      · exact .inr ⟨hchange, hret (k t) hk⟩

end Rule

/-! ## Soundness -/

section Soundness

variable {J : σ → Prop} {P : κ → Prop} {c₀ c : Pool ℓ σ ε} {w : ℕ → Watch}

/-- What is known of procedure `p` that stands as `w` to what is watched in `s`. -/
structure Stands (obs : σ → κ) (J : σ → Prop) (P : κ → Prop) (s : σ) (w : Watch)
    (p : Prog ℓ σ ε Unit) : Prop where
  keeps : p.Keeps fun s t => J s → J t
  idle : w = .idle → ∀ s, Upright obs J P p s
  fresh : w = .fresh → Upright obs J P p s

/-- The step of another procedure leaves a procedure as it stands, or overtakes it. -/
theorem Stands.other {s s' : σ} {w : ℕ → Watch} {i j : ℕ} {p : Prog ℓ σ ε Unit}
    (hp : Stands obs J P s (w j) p) (hj : j ≠ i) :
    Stands obs J P s' (watched w i (¬Same obs s s') j) p := by
  rw [watched, if_neg hj]
  split
  · exact ⟨hp.keeps, (fun hw => by cases hw), fun hw => by cases hw⟩
  · next hno =>
      refine ⟨hp.keeps, hp.idle, fun hw => (hp.fresh hw).same ?_⟩
      by_contra hchanged
      exact hno ⟨hchanged, hw⟩

/-- The step of a procedure that has not been overtaken is one of its rule. -/
theorem Stands.step {s : σ} {w : Watch} {l : ℓ} {u : σ → σ} {k : σ → Prog ℓ σ ε Unit}
    {h : ε → Prog ℓ σ ε Unit} (hp : Stands obs J P s w (.act l u k h)) (hw : w ≠ .overtaken)
    (hJ : J s) (hP : P (obs s)) :
    (Same obs s (u s) ∧ Upright obs J P (k s) (u s)) ∨
      (P (obs (u s)) ∧ (k s).Keeps (Same obs)) := by
  have hup : Upright obs J P (.act l u k h) s := by
    cases w with
    | idle => exact hp.idle rfl s
    | fresh => exact hp.fresh rfl
    | overtaken => exact absurd rfl hw
  exact hup s (Same.refl s) hJ hP

/-- What is watched satisfies `P` after every undisturbed run of upright procedures. -/
theorem Pool.Undisturbed.holds (hP : P (obs c₀.store)) (hJ : J c₀.store)
    (hT : ∀ p ∈ c₀.threads, (p.Keeps fun s t => J s → J t) ∧ ∀ s, Upright obs J P p s)
    (henv : ∀ s s', env s s' → Same obs s s' ∧ (J s → J s')) (h : Pool.Undisturbed obs env c₀ c w) :
    P (obs c.store) ∧ J c.store := by
  suffices hall : P (obs c.store) ∧ J c.store ∧
      ∀ i p, c.threads[i]? = some p → Stands obs J P c.store (w i) p from ⟨hall.1, hall.2.1⟩
  induction h with
  | start =>
      refine ⟨hP, hJ, fun i p hp => ?_⟩
      obtain ⟨hkeeps, hup⟩ := hT p (List.mem_of_getElem? hp)
      exact ⟨hkeeps, fun _ => hup, fun h => by cases h⟩
  | @env s s' T w _ he ih =>
      obtain ⟨hP', hJ', hstands⟩ := ih
      obtain ⟨hsame, hkeep⟩ := henv s s' he
      refine ⟨?_, hkeep hJ', fun i p hp => ?_⟩
      · rw [show obs s' = obs s from hsame]
        exact hP'
      · have hold := hstands i p hp
        exact ⟨hold.keeps, hold.idle, fun hw => (hold.fresh hw).same hsame⟩
  | @act s T w i l u k h _ hi hok ih =>
      obtain ⟨hP', hJ', hstands⟩ := ih
      have hthis := hstands i _ hi
      have hrest : (k s).Keeps fun s t => J s → J t := by
        cases hthis.keeps with
        | act _ hk _ => exact hk s
      have hJu : J (u s) := by
        cases hthis.keeps with
        | act hu _ _ => exact hu s hJ'
      have hstep := fun hw => hthis.step hw hJ' hP'
      have hPu : P (obs (u s)) := by
        by_cases hw : w i = .overtaken
        · rw [show obs (u s) = obs s from hok hw]
          exact hP'
        · rcases hstep hw with ⟨hsame, -⟩ | ⟨hchange, -⟩
          · rw [show obs (u s) = obs s from hsame]
            exact hP'
          · exact hchange
      refine ⟨hPu, hJu, fun j p hp => ?_⟩
      change (T.set i (k s))[j]? = some p at hp
      by_cases hij : i = j
      · subst hij
        obtain rfl : k s = p := by
          have hlt : i < T.length := (List.getElem?_eq_some_iff.mp hi).1
          rw [List.getElem?_set_self hlt] at hp
          exact Option.some.inj hp
        have hwatch : watched w i (¬Same obs s (u s)) i = if w i = .idle then .fresh else w i :=
          if_pos rfl
        refine ⟨hrest, fun hw => ?_, fun hw => ?_⟩
        · rw [hwatch] at hw
          split at hw
          · cases hw
          · next hidle => exact absurd hw hidle
        · have hne : w i ≠ .overtaken := by
            intro hover
            rw [hwatch, hover] at hw
            cases hw
          rcases hstep hne with ⟨-, hup⟩ | ⟨-, hkeep⟩
          · exact hup
          · exact upright_of_keeps hkeep
      · rw [List.getElem?_set_ne hij] at hp
        exact (hstands j p hp).other fun h => hij h.symm

end Soundness

end Interleaving
