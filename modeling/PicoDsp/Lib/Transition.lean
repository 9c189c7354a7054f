/-
Runs of a labelled step function, and the two induction rules every safety
argument of the development goes through.

A system is a partial function `step : σ → ℓ → Option σ`: the label names who
moves and on what input, and `none` says that the move is not enabled. Nothing
here knows what the states are. A function and not a relation, so that a run is a list
of labels that can be evaluated; what is not determined by the code, a party's turn, an
input, an answer of the environment, has to be in the label.

There are two notions of a run. `run` computes, and is what a concrete run and the
statements about "after any labels" are made of. `RunBy` is the inductive relation with a
condition `ok` on the state and the label of each step, which is how "as long as
every step meets the condition" is said; a run of the one is a run of the other for the
trivial condition (`RunBy.of_run`).

The invariant rule is stated for both, with the condition at hand in the step
(`RunBy.invariant`), with the labels so far (`RunBy.invariant_trace`), which is what an
invariant about a history needs, and for reachability. The simulation rule lets a step
of one system be any run of the other, none included (`ReachedBy.simulates`), so that
systems of different grain can be compared.
-/
import Mathlib.Data.List.Basic

set_option autoImplicit false

namespace PicoDsp.Lib.Transition

variable {σ ℓ : Type}

/-- The state after a list of labels, `none` if one of them is not enabled. -/
def run (step : σ → ℓ → Option σ) : σ → List ℓ → Option σ
  | s, [] => some s
  | s, l :: ls => (step s l).bind fun s' => run step s' ls

/-- `RunBy step ok s ls t`: the labels `ls` lead from `s` to `t`, and every
step of the run meets `ok` in the state it starts from. -/
inductive RunBy (step : σ → ℓ → Option σ) (ok : σ → ℓ → Prop) : σ → List ℓ → σ → Prop
  | nil (s : σ) : RunBy step ok s [] s
  | cons {s s' t : σ} {l : ℓ} {ls : List ℓ} (hok : ok s l) (hstep : step s l = some s')
      (hrest : RunBy step ok s' ls t) : RunBy step ok s (l :: ls) t

/-- `t` is reached from `s` by steps that all meet `ok`. -/
def ReachedBy (step : σ → ℓ → Option σ) (ok : σ → ℓ → Prop) (s t : σ) : Prop :=
  ∃ ls, RunBy step ok s ls t

/-- `t` is reached from `s` by any steps at all. -/
def Reached (step : σ → ℓ → Option σ) (s t : σ) : Prop :=
  ReachedBy step (fun _ _ => True) s t

section Rules

variable {step : σ → ℓ → Option σ} {ok : σ → ℓ → Prop}

@[simp] theorem run_nil (s : σ) : run step s [] = some s := rfl

theorem run_cons (s : σ) (l : ℓ) (ls : List ℓ) :
    run step s (l :: ls) = (step s l).bind fun s' => run step s' ls := rfl

/-- The labels in two parts. -/
theorem run_append (s : σ) (ls ks : List ℓ) :
    run step s (ls ++ ks) = (run step s ls).bind fun t => run step t ks := by
  induction ls generalizing s with
  | nil => rfl
  | cons l ls ih =>
      rw [List.cons_append, run_cons, run_cons, Option.bind_assoc]
      exact Option.bind_congr fun t _ => ih t

/-- A step, and the run behind it. -/
theorem run_step {s s' : σ} {l : ℓ} {ls : List ℓ} {r : Option σ} (h : step s l = some s')
    (hrest : run step s' ls = r) : run step s (l :: ls) = r := by
  rw [run_cons, h]
  exact hrest

/-- Two runs, one behind the other. -/
theorem run_trans {s t : σ} {ls ks : List ℓ} {r : Option σ} (h : run step s ls = some t)
    (hrest : run step t ks = r) : run step s (ls ++ ks) = r := by
  rw [run_append, h]
  exact hrest

/-- The state in front of a label of a run. -/
theorem run_split {s t : σ} {pre post : List ℓ} {l : ℓ} (h : run step s (pre ++ l :: post) = some t) :
    ∃ u v, run step s pre = some u ∧ step u l = some v ∧ run step v post = some t := by
  rw [run_append, Option.bind_eq_some_iff] at h
  obtain ⟨u, hpre, hrest⟩ := h
  rw [run_cons, Option.bind_eq_some_iff] at hrest
  obtain ⟨v, hstep, hpost⟩ := hrest
  exact ⟨u, v, hpre, hstep, hpost⟩

/-- A run of the step function is a run in the relational sense. -/
theorem RunBy.of_run {P : ℓ → Prop} {s t : σ} {ls : List ℓ} (h : run step s ls = some t)
    (hls : ∀ l ∈ ls, P l) : RunBy step (fun _ l => P l) s ls t := by
  induction ls generalizing s with
  | nil =>
      rw [run_nil, Option.some.injEq] at h
      subst h
      exact .nil s
  | cons l ls ih =>
      rw [run_cons, Option.bind_eq_some_iff] at h
      obtain ⟨s', hstep, hrest⟩ := h
      rw [List.forall_mem_cons] at hls
      exact .cons hls.1 hstep (ih hrest hls.2)

/-- **The invariant rule.** What every permitted step preserves holds at the
end of every permitted run. -/
theorem RunBy.invariant {Inv : σ → Prop} {s t : σ} {ls : List ℓ}
    (hrun : RunBy step ok s ls t)
    (hstep : ∀ s l s', Inv s → ok s l → step s l = some s' → Inv s') (hs : Inv s) :
    Inv t := by
  induction hrun with
  | nil s => exact hs
  | cons hok h _ ih => exact ih (hstep _ _ _ hs hok h)

/-- The invariant rule with the labels so far. -/
theorem RunBy.invariant_trace {Inv : List ℓ → σ → Prop} {s t : σ} {ls : List ℓ}
    (hrun : RunBy step ok s ls t)
    (hstep : ∀ past s l s', Inv past s → ok s l → step s l = some s' → Inv (past ++ [l]) s')
    (hs : Inv [] s) : Inv ls t := by
  have hpast : ∀ past, Inv past s → Inv (past ++ ls) t := by
    clear hs
    induction hrun with
    | nil s =>
        intro past hinv
        rw [List.append_nil]
        exact hinv
    | cons hok h _ ih =>
        intro past hinv
        have hlast := ih _ (hstep past _ _ _ hinv hok h)
        rwa [List.append_assoc, List.singleton_append] at hlast
  exact hpast [] hs

/-- The invariant rule at the level of reachability. -/
theorem ReachedBy.invariant {Inv : σ → Prop} {s t : σ} (h : ReachedBy step ok s t)
    (hstep : ∀ s l s', Inv s → ok s l → step s l = some s' → Inv s') (hs : Inv s) :
    Inv t := by
  obtain ⟨ls, hrun⟩ := h
  exact hrun.invariant hstep hs

/-- Two permitted runs, one behind the other. -/
theorem RunBy.append {s t u : σ} {ls ks : List ℓ} (h₁ : RunBy step ok s ls t)
    (h₂ : RunBy step ok t ks u) : RunBy step ok s (ls ++ ks) u := by
  induction h₁ with
  | nil s => exact h₂
  | cons hok h _ ih => exact .cons hok h (ih h₂)

/-- Permitted runs compose. -/
theorem ReachedBy.trans {s t u : σ} (h₁ : ReachedBy step ok s t) (h₂ : ReachedBy step ok t u) :
    ReachedBy step ok s u := by
  obtain ⟨ls, hls⟩ := h₁
  obtain ⟨ks, hks⟩ := h₂
  exact ⟨ls ++ ks, hls.append hks⟩

theorem ReachedBy.refl (s : σ) : ReachedBy step ok s s := ⟨[], .nil s⟩

/-- A step of the one system at which the other stands still. -/
theorem ReachedBy.of_eq {s t : σ} (h : t = s) : ReachedBy step ok s t := by
  rw [h]
  exact ReachedBy.refl s

/-- One permitted step. -/
theorem ReachedBy.single {s t : σ} {l : ℓ} (hok : ok s l) (hstep : step s l = some t) :
    ReachedBy step ok s t := ⟨[l], .cons hok hstep (.nil t)⟩

/-- A weaker condition permits the run too. -/
theorem RunBy.mono {ok' : σ → ℓ → Prop} {s t : σ} {ls : List ℓ} (h : RunBy step ok s ls t)
    (hok : ∀ s l, ok s l → ok' s l) : RunBy step ok' s ls t := by
  induction h with
  | nil s => exact .nil s
  | cons h hstep _ ih => exact .cons (hok _ _ h) hstep ih

/-- And what it reaches. -/
theorem ReachedBy.mono {ok' : σ → ℓ → Prop} {s t : σ} (h : ReachedBy step ok s t)
    (hok : ∀ s l, ok s l → ok' s l) : ReachedBy step ok' s t := by
  obtain ⟨ls, hrun⟩ := h
  exact ⟨ls, hrun.mono hok⟩

/-- **The simulation rule.** When every permitted step is a permitted run of
another system, seen through `abs`, then so is every permitted run. -/
theorem ReachedBy.simulates {τ κ : Type} {step' : τ → κ → Option τ} {ok' : τ → κ → Prop}
    {abs : σ → τ} {Inv : σ → Prop} {s t : σ} (h : ReachedBy step ok s t)
    (hstep : ∀ s l s', Inv s → ok s l → step s l = some s' →
      Inv s' ∧ ReachedBy step' ok' (abs s) (abs s'))
    (hs : Inv s) : Inv t ∧ ReachedBy step' ok' (abs s) (abs t) := by
  obtain ⟨ls, hrun⟩ := h
  induction hrun with
  | nil s => exact ⟨hs, ReachedBy.refl _⟩
  | cons hok hnext _ ih =>
      obtain ⟨hinv, hfirst⟩ := hstep _ _ _ hs hok hnext
      obtain ⟨hlast, hrest⟩ := ih hinv
      exact ⟨hlast, hfirst.trans hrest⟩

end Rules

end PicoDsp.Lib.Transition
