/-
`while` loops that need not end.

`loop` counts down a fuel and says `none` when it is used up, so a loop ends
exactly if some fuel is enough. `Ends` has the rules for a loop that does, and
`Returns` those for code that goes through several of them on the same fuel. For
a loop that does not end, it is enough to find a property of the variable that
keeps the condition true and that the body keeps (`loop_diverges`).

The fuel is there because a loop of a program is not a recursion that Lean could see to
end; whether it does may be the question. It has no other meaning: more of it does not
change a result (`loop_mono`), so a statement never names an amount. "The code returns"
is `Returns`, there is a fuel from which on it does, and "the code does not return" is
`none` for every fuel.
-/
import Mathlib.Order.Basic

set_option autoImplicit false

namespace PicoDsp.Lib.While

variable {α β : Type}

/-- `while cond { body }`, with the condition tested `fuel` times at most. -/
def loop (cond : α → Bool) (body : α → α) : ℕ → α → Option α
  | 0, _ => none
  | fuel + 1, a => if cond a then loop cond body fuel (body a) else some a

variable {cond : α → Bool} {body : α → α} {a b : α}

/-- The condition is false. -/
theorem loop_stop (h : cond a = false) (fuel : ℕ) : loop cond body (fuel + 1) a = some a := by
  rw [loop, h]
  rfl

/-- The condition is true. -/
theorem loop_continue (h : cond a = true) (fuel : ℕ) :
    loop cond body (fuel + 1) a = loop cond body fuel (body a) := by
  rw [loop, h]
  rfl

/-- More fuel does not change what comes out. -/
theorem loop_mono {fuel fuel' : ℕ} (h : loop cond body fuel a = some b) (hle : fuel ≤ fuel') :
    loop cond body fuel' a = some b := by
  induction fuel generalizing a fuel' with
  | zero => cases h
  | succ fuel ih =>
      obtain ⟨k, rfl⟩ := Nat.exists_eq_succ_of_ne_zero (by omega : fuel' ≠ 0)
      rcases hcond : cond a with _ | _
      · rw [loop_stop hcond] at h ⊢
        exact h
      · rw [loop_continue hcond] at h ⊢
        exact ih h (by omega)

/-- The loop ends, and leaves `b`. -/
def Ends (cond : α → Bool) (body : α → α) (a b : α) : Prop := ∃ fuel, loop cond body fuel a = some b

/-- A loop that is not entered. -/
theorem Ends.stop (h : cond a = false) : Ends cond body a a := ⟨1, loop_stop h 0⟩

/-- A pass, and a loop that ends. -/
theorem Ends.step (h : cond a = true) (hrest : Ends cond body (body a) b) : Ends cond body a b := by
  obtain ⟨fuel, hfuel⟩ := hrest
  exact ⟨fuel + 1, (loop_continue h fuel).trans hfuel⟩

/-- The code returns `b` as soon as there is fuel enough. -/
def Returns (run : ℕ → Option β) (b : β) : Prop := ∃ enough, ∀ fuel, enough ≤ fuel → run fuel = some b

/-- A loop that ends returns its last value. -/
theorem Ends.returns (h : Ends cond body a b) :
    Returns (fun fuel => loop cond body fuel a) b := by
  obtain ⟨enough, hloop⟩ := h
  exact ⟨enough, fun fuel hle => loop_mono hloop hle⟩

theorem Returns.const (b : β) : Returns (fun _ => some b) b := ⟨0, fun _ _ => rfl⟩

/-- One after the other. -/
theorem Returns.bind {run : ℕ → Option α} {next : ℕ → α → Option β} (h : Returns run a)
    {c : β} (hnext : Returns (fun fuel => next fuel a) c) :
    Returns (fun fuel => (run fuel).bind (next fuel)) c := by
  obtain ⟨n, hn⟩ := h
  obtain ⟨m, hm⟩ := hnext
  refine ⟨n + m, ?_⟩
  intro fuel hle
  show (run fuel).bind (next fuel) = some c
  rw [hn fuel (by omega), Option.bind_some]
  exact hm fuel (by omega)

/-- **The loop never ends** from a value with a property that it cannot lose. -/
theorem loop_diverges (stuck : α → Prop) (hcond : ∀ a, stuck a → cond a = true)
    (hbody : ∀ a, stuck a → stuck (body a)) (ha : stuck a) (fuel : ℕ) :
    loop cond body fuel a = none := by
  induction fuel generalizing a with
  | zero => rfl
  | succ fuel ih => rw [loop_continue (hcond a ha), ih (hbody a ha)]

end PicoDsp.Lib.While
