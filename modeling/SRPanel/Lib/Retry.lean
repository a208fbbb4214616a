import Mathlib.Data.List.Sublists
import Mathlib.Tactic.Common

/-!
# Trying again

Something is sent until it goes well, at most a number of times, with a pause after each failure.
What happened to it is its history, the last event first. A `Life` is where it stands; `Lives` are
the histories that the policy allows, in which an answer may get lost before it is noted.
-/

namespace Retry

variable {ρ : Type}

/-- How often to try, how long to pause after so many failures, and which answers are good. -/
structure Policy (ρ : Type) where
  limit : ℕ
  pause : ℕ → ℕ
  good : ρ → Bool
  limit_pos : 0 < limit

inductive Event (ρ : Type)
  | sent (at' : ℕ) (answer : ρ)
  | noted (at' : ℕ) (answer : ρ)
  | dropped

/-- Where something that is tried stands: it waits, after so many failures, until a time; it has
been sent and the answer is not noted yet; or it is over. -/
inductive Life (ρ : Type)
  | waiting (failures until' : ℕ)
  | sent (failures until' : ℕ) (answer : ρ)
  | ended

/-- The answers, the last first. -/
def sends (h : List (Event ρ)) : List ρ :=
  h.filterMap fun e => match e with | .sent _ a => some a | _ => none

/-- The answers that have been noted, the last first. -/
def notes (h : List (Event ρ)) : List ρ :=
  h.filterMap fun e => match e with | .noted _ a => some a | _ => none

section Counts

variable (h : List (Event ρ)) (t : ℕ) (a : ρ)

@[simp] theorem sends_nil : sends ([] : List (Event ρ)) = [] := rfl
@[simp] theorem notes_nil : notes ([] : List (Event ρ)) = [] := rfl
@[simp] theorem sends_sent : sends (.sent t a :: h) = a :: sends h := rfl
@[simp] theorem notes_sent : notes (.sent t a :: h) = notes h := rfl
@[simp] theorem sends_noted : sends (.noted t a :: h) = sends h := rfl
@[simp] theorem notes_noted : notes (.noted t a :: h) = a :: notes h := rfl
@[simp] theorem sends_dropped : sends (.dropped :: h) = sends h := rfl
@[simp] theorem notes_dropped : notes (.dropped :: h) = notes h := rfl

end Counts

variable (P : Policy ρ)

/-- Where it stands after a noted answer. -/
def Policy.after (failures t : ℕ) (a : ρ) : Life ρ :=
  if P.good a || P.limit ≤ failures + 1 then .ended else .waiting (failures + 1)
    (t + P.pause (failures + 1))

inductive Step : Life ρ → Event ρ → Life ρ → Prop
  | send {n due t : ℕ} {a : ρ} : due ≤ t → Step (.waiting n due) (.sent t a) (.sent n due a)
  /-- the answer before has got lost -/
  | resend {n due t : ℕ} {a b : ρ} : due ≤ t → Step (.sent n due b) (.sent t a) (.sent n due a)
  | note {n due t : ℕ} {a : ρ} : Step (.sent n due a) (.noted t a) (P.after n t a)
  | drop {n due : ℕ} : Step (.waiting n due) .dropped .ended
  | dropSent {n due : ℕ} {a : ρ} : Step (.sent n due a) .dropped .ended

/-- The histories of something that may be sent from `t₀` on, and where each leaves it. -/
inductive Lives (t₀ : ℕ) : List (Event ρ) → Life ρ → Prop
  | born : Lives t₀ [] (.waiting 0 t₀)
  | next {h : List (Event ρ)} {L L' : Life ρ} {e : Event ρ} :
      Lives t₀ h L → Step P L e L' → Lives t₀ (e :: h) L'

variable {P} {t₀ : ℕ} {h : List (Event ρ)} {L : Life ρ}

theorem Step.unique {L L₁ L₂ : Life ρ} {e : Event ρ} (h₁ : Step P L e L₁) (h₂ : Step P L e L₂) :
    L₁ = L₂ := by
  cases h₁ <;> cases h₂ <;> rfl

theorem Lives.unique {L' : Life ρ} (h₁ : Lives P t₀ h L) (h₂ : Lives P t₀ h L') : L = L' := by
  induction h₁ generalizing L' with
  | born =>
      cases h₂
      rfl
  | next _ hstep ih =>
      cases h₂ with
      | next hl hstep' =>
          rw [ih hl] at hstep
          exact hstep.unique hstep'

/-- What is over stays as it is. -/
theorem not_step_over {e : Event ρ} {L' : Life ρ} : ¬Step P .ended e L' := fun h => by cases h

theorem Lives.before {h₂ h₁ : List (Event ρ)} (hl : Lives P t₀ (h₂ ++ h₁) L) :
    ∃ L₁, Lives P t₀ h₁ L₁ := by
  induction h₂ generalizing L with
  | nil => exact ⟨L, hl⟩
  | cons e h₂ ih =>
      cases hl with
      | next hl _ => exact ih hl

/-- How a history agrees with where it leads. -/
def Life.Agrees (P : Policy ρ) (h : List (Event ρ)) : Life ρ → Prop
  | waiting n _ => (notes h).length = n ∧ n < P.limit ∧ (notes h).Sublist (sends h) ∧ ∀ a ∈ notes h,
  P.good a = false
  | sent n _ a => (notes h).length = n ∧ n < P.limit ∧
      (∃ as, sends h = a :: as ∧ (notes h).Sublist as) ∧ ∀ a ∈ notes h, P.good a = false
  | ended => (notes h).length ≤ P.limit ∧ (notes h).Sublist (sends h) ∧
  (∀ a ∈ (notes h).tail, P.good a = false)

theorem Lives.agrees (hl : Lives P t₀ h L) : L.Agrees P h := by
  induction hl with
  | born => exact ⟨rfl, P.limit_pos, List.Sublist.refl _, fun a ha => by cases ha⟩
  | @next h L L' e _ hstep ih =>
      cases hstep with
      | send _ =>
          obtain ⟨hn, hlt, hsub, hbad⟩ := ih
          exact ⟨hn, hlt, ⟨_, rfl, hsub⟩, hbad⟩
      | resend _ =>
          obtain ⟨hn, hlt, ⟨as, has, hsub⟩, hbad⟩ := ih
          refine ⟨hn, hlt, ⟨_, rfl, ?_⟩, hbad⟩
          show (notes h).Sublist (sends h)
          rw [has]
          exact hsub.cons _
      | @note n due t a =>
          obtain ⟨hn, hlt, ⟨as, has, hsub⟩, hbad⟩ := ih
          have hlength : (notes (.noted t a :: h)).length = n + 1 :=
            by rw [notes_noted, List.length_cons, hn]
          have hsub' : (notes (.noted t a :: h)).Sublist (sends (.noted t a :: h)) := by
            rw [notes_noted, sends_noted, has]
            exact hsub.cons_cons a
          rw [Policy.after]
          split
          · exact ⟨by omega, hsub', hbad⟩
          · next hgo =>
            rw [Bool.or_eq_true, decide_eq_true_eq, not_or, Bool.not_eq_true] at hgo
            refine ⟨hlength, by omega, hsub', fun b hb => ?_⟩
            rcases List.mem_cons.mp hb with rfl | hb
            · exact hgo.1
            · exact hbad b hb
      | drop =>
          obtain ⟨hn, hlt, hsub, hbad⟩ := ih
          exact ⟨by rw [notes_dropped]; omega, hsub, fun a ha => hbad a (List.mem_of_mem_tail ha)⟩
      | dropSent =>
          obtain ⟨hn, hlt, ⟨as, has, hsub⟩, hbad⟩ := ih
          refine ⟨by rw [notes_dropped]; omega, ?_, fun a ha => hbad a (List.mem_of_mem_tail ha)⟩
          rw [notes_dropped, sends_dropped, has]
          exact hsub.cons _

/-- No more answers are noted than the policy allows. -/
theorem Lives.notes_le (hl : Lives P t₀ h L) : (notes h).length ≤ P.limit := by
  have hagrees := hl.agrees
  cases L with
  | waiting n t => exact hagrees.1 ▸ hagrees.2.1.le
  | sent n t a => exact hagrees.1 ▸ hagrees.2.1.le
  | ended => exact hagrees.1

/-- Every noted answer was one to something sent, in this order. -/
theorem Lives.notes_sublist (hl : Lives P t₀ h L) : (notes h).Sublist (sends h) := by
  have hagrees := hl.agrees
  cases L with
  | waiting n t => exact hagrees.2.2.1
  | sent n t a =>
      obtain ⟨-, -, ⟨as, has, hsub⟩, -⟩ := hagrees
      rw [has]
      exact hsub.cons _
  | ended => exact hagrees.2.1

/-- All answers but the last one were bad. -/
theorem Lives.notes_tail (hl : Lives P t₀ h L) : ∀ a ∈ (notes h).tail, P.good a = false := by
  have hagrees := hl.agrees
  cases L with
  | waiting n t => exact fun a ha => hagrees.2.2.2 a (List.mem_of_mem_tail ha)
  | sent n t a => exact fun a ha => hagrees.2.2.2 a (List.mem_of_mem_tail ha)
  | ended => exact hagrees.2.2

/-- It has gone well, or has been tried as often as the policy allows, or has been dropped. -/
def Finished (P : Policy ρ) (h : List (Event ρ)) : Prop :=
  (∃ a ∈ (notes h).head?, P.good a) ∨ (notes h).length = P.limit ∨ .dropped ∈ h

/-- It is over exactly if it is finished. -/
theorem Lives.over_iff (hl : Lives P t₀ h L) : L = .ended ↔ Finished P h := by
  -- by the last step: a record or a drop can finish, and a post finishes nothing
  induction hl with
  | born =>
      refine ⟨fun h => (by cases h), ?_⟩
      rintro (⟨a, ha, -⟩ | h | h)
      · cases ha
      · exact absurd h.symm P.limit_pos.ne'
      · cases h
  | @next h L L' e hl hstep ih =>
      have hopen : ¬Finished P h := by
        rw [← ih]
        rintro rfl
        exact not_step_over hstep
      have hsame : ∀ t a, Finished P (.sent t a :: h) ↔ Finished P h := fun t a => by
        unfold Finished
        rw [notes_sent, List.mem_cons]
        simp
      have hnotes := hl.agrees
      have hnew := (hl.next hstep).agrees
      cases hstep with
      | send _ => exact ⟨fun h => (by cases h), fun h => absurd ((hsame _ _).mp h) hopen⟩
      | resend _ => exact ⟨fun h => (by cases h), fun h => absurd ((hsame _ _).mp h) hopen⟩
      | @note n due t a =>
          have hn : (notes (.noted t a :: h)).length = n + 1 :=
            by rw [notes_noted, List.length_cons, hnotes.1]
          have hlt : n < P.limit := hnotes.2.1
          have hdropped : Event.dropped ∉ (.noted t a :: h : List (Event ρ)) := by
            rw [List.mem_cons, not_or]
            exact ⟨by simp, fun hmem => hopen (.inr (.inr hmem))⟩
          have hfin : Finished P (.noted t a :: h) ↔ P.good a ∨ P.limit ≤ n + 1 := by
            unfold Finished
            rw [hn, notes_noted, List.head?_cons]
            constructor
            · rintro (⟨b, hb, hgood⟩ | hlimit | hmem)
              · obtain rfl : a = b := Option.some.inj hb
                exact .inl hgood
              · exact .inr hlimit.ge
              · exact absurd hmem hdropped
            · rintro (hgood | hlimit)
              · exact .inl ⟨a, rfl, hgood⟩
              · exact .inr (.inl (by omega))
          rw [hfin, Policy.after]
          split
          · next hgo => exact ⟨fun _ => by simpa using hgo, fun _ => rfl⟩
          · next hgo => exact ⟨fun h => (by cases h), fun h => absurd (by simpa using h) hgo⟩
      | drop => exact ⟨fun _ => .inr (.inr List.mem_cons_self), fun _ => rfl⟩
      | dropSent => exact ⟨fun _ => .inr (.inr List.mem_cons_self), fun _ => rfl⟩

/-- Nothing happens after the end. -/
theorem Lives.open_before {e : Event ρ} (hl : Lives P t₀ (e :: h) L) : ¬Finished P h := by
  cases hl with
  | next hl hstep =>
      rw [← hl.over_iff]
      rintro rfl
      exact not_step_over hstep

/-- The time that has to come before the next try. -/
def Life.due : Life ρ → Option ℕ
  | waiting _ t => some t
  | sent _ t _ => some t
  | ended => none

/-- Between a noted answer and the next try lies the pause for the failures so far. -/
theorem Lives.spaced {t t' : ℕ} {a b : ρ} {h₁ h₂ : List (Event ρ)}
    (hl : Lives P t₀ (.sent t' b :: h₂ ++ .noted t a :: h₁) L) (hnone : notes h₂ = []) :
    t + P.pause ((notes h₁).length + 1) ≤ t' := by
  -- until the next answer is noted, the time that has to come stays the same
  have hdue : ∀ {h₂ : List (Event ρ)} {L : Life ρ}, notes h₂ = [] →
      Lives P t₀ (h₂ ++ .noted t a :: h₁) L →
      ∀ d ∈ L.due, d = t + P.pause ((notes h₁).length + 1) := by
    intro h₂
    induction h₂ with
    | nil =>
        intro L _ hl d hd
        cases hl with
        | next hl hstep =>
            have hn := hl.agrees
            cases hstep with
            | note =>
                rw [Policy.after] at hd
                split at hd
                · cases hd
                · rw [hn.1]
                  exact (Option.some.inj hd).symm
    | cons e h₂ ih =>
        intro L hnone hl d hd
        cases hl with
        | next hl hstep =>
            cases hstep with
            | send _ => exact ih hnone hl d hd
            | resend _ => exact ih hnone hl d hd
            | note => cases hnone
            | drop => cases hd
            | dropSent => cases hd
  cases hl with
  | next hl hstep =>
      cases hstep with
      | send hle => exact hdue hnone hl _ rfl ▸ hle
      | resend hle => exact hdue hnone hl _ rfl ▸ hle

end Retry
