import Mathlib.Data.List.Chain

/-!
# Alternation

A list of switches, on and off by turns, that begins with on.
-/

namespace SRPanel

/-- The switches alternate, and the first one is on. -/
def Alternates (l : List Bool) : Prop := l.IsChain (· ≠ ·) ∧ l.head? ≠ some false

/-- What the last switch says; it is off before the first. -/
def lastOn (l : List Bool) : Bool := l.getLast?.getD false

theorem alternates_nil : Alternates [] := ⟨.nil, by simp⟩

@[simp] theorem lastOn_nil : lastOn [] = false := rfl

@[simp] theorem lastOn_concat (l : List Bool) (b : Bool) : lastOn (l ++ [b]) = b := by simp [lastOn]

variable {l : List Bool} {b : Bool}

/-- A switch against the last one continues an alternation. -/
theorem Alternates.concat (h : Alternates l) (hb : lastOn l ≠ b) : Alternates (l ++ [b]) := by
  obtain ⟨hchain, hhead⟩ := h
  refine ⟨List.isChain_append.mpr ⟨hchain, .singleton b, fun x hx y hy => ?_⟩, ?_⟩
  · obtain rfl : b = y := by simpa using hy
    rw [Option.mem_def] at hx
    simpa [lastOn, hx] using hb
  · cases l with
    | nil => simpa [lastOn] using hb.symm
    | cons x l => simpa using hhead

end SRPanel
