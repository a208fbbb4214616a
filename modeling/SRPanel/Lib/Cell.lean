import Mathlib.Data.Nat.Notation
import Mathlib.Logic.Function.Basic

/-!
# Cached cells

A `Cell` is one stored value with a private cache in every process. A read answers from the cache of
its process while the cached copy is younger than a time to live, and from the store otherwise; a
write goes to the store and to the cache of the writing process only. Another process may therefore
read a value that is no longer stored, which is what `Cell.get` models.
-/

/-- One stored value, with the copy that each process `π` has cached and the time it was cached at.
-/
structure Cell (π α : Type) where
  stored : α
  cache : π → Option (ℕ × α)

namespace Cell

variable {π α : Type}

/-- A cell that no process has read. -/
def fresh (a : α) : Cell π α := ⟨a, fun _ => none⟩

/-- The copy that process `x` may still use at time `now`. -/
def hit (c : Cell π α) (x : π) (ttl now : ℕ) : Option α :=
  match c.cache x with
  | some (t, a) => if now - t < ttl then some a else none
  | none => none

/-- What process `x` reads at time `now`. -/
def get (c : Cell π α) (x : π) (ttl now : ℕ) : α := (c.hit x ttl now).getD c.stored

/-- Every copy of the cell, stored or cached, satisfies `P`. -/
def All (P : α → Prop) (c : Cell π α) : Prop :=
  P c.stored ∧ ∀ x t a, c.cache x = some (t, a) → P a

variable {P : α → Prop} {c : Cell π α}

theorem All.get (h : c.All P) (x : π) (ttl now : ℕ) : P (c.get x ttl now) := by
  unfold Cell.get Cell.hit
  split
  · next t a hc =>
      split
      · exact h.2 x t a hc
      · exact h.1
  · exact h.1

theorem All.fresh {a : α} (ha : P a) : (Cell.fresh a : Cell π α).All P :=
  ⟨ha, fun _ _ _ h => nomatch h⟩

variable [DecidableEq π]

/-- The cell after process `x` has read it at time `now`. -/
def touch (c : Cell π α) (x : π) (ttl now : ℕ) : Cell π α :=
  if (c.hit x ttl now).isSome then c
  else ⟨c.stored, Function.update c.cache x (some (now, c.stored))⟩

/-- The cell after process `x` has written `a` at time `now`. -/
def put (c : Cell π α) (x : π) (now : ℕ) (a : α) : Cell π α :=
  ⟨a, Function.update c.cache x (some (now, a))⟩

@[simp] theorem stored_touch (c : Cell π α) (x : π) (ttl now : ℕ) :
    (c.touch x ttl now).stored = c.stored := by
  unfold touch
  split <;> rfl

@[simp] theorem stored_put (c : Cell π α) (x : π) (now : ℕ) (a : α) :
    (c.put x now a).stored = a := rfl

private theorem All.update (h : c.All P) {a b : α} (ha : P a) (hb : P b) (x : π) (t : ℕ) :
    All P ⟨b, Function.update c.cache x (some (t, a))⟩ := by
  refine ⟨hb, fun y t' a' hy => ?_⟩
  dsimp only at hy
  by_cases hyx : y = x
  · rw [hyx, Function.update_self] at hy
    obtain ⟨-, rfl⟩ : t = t' ∧ a = a' := by simpa using hy
    exact ha
  · rw [Function.update_of_ne hyx] at hy
    exact h.2 y t' a' hy

theorem All.touch (h : c.All P) (x : π) (ttl now : ℕ) : (c.touch x ttl now).All P := by
  unfold Cell.touch
  split
  · exact h
  · exact h.update h.1 h.1 x now

theorem All.put (h : c.All P) {a : α} (ha : P a) (x : π) (now : ℕ) : (c.put x now a).All P :=
  h.update ha ha x now

end Cell
