/-
What flows through a labelled system.

Laws about runs that do not mention any particular system: what goes in and is not held
any more has come out, in order (`conserves`, `thins_out`) or in number (`balances`); a
register that is read out and reset holds what it has gathered since (`register`); a
measure that no step increases bounds the steps that decrease it (`turns_le`), and where
such a step is always there it leads to a goal (`run_to_goal`); and steps that do not show
in a relation to a second run can be left out (`run_erase`).

Each is an induction over a run with an equation as its invariant, and what a user proves
is the equation of one step. The states are read through functions, what goes in, what
comes out, what is held, so that a system with many parts is seen as one pipe, and the same
run may be read by several of these laws at once.

Conservation comes in order and in number because they are needed at different places. A
stream of samples must not be reordered, and its law is about lists; a counter that is
reported from time to time must not be lost, and its law is about sums, in any
commutative monoid, so also modulo a power of two. `thins_out` is for a tap that may drop
what finds no place: what comes out is then a sublist of what went in.

Safety and progress are kept apart. `turns_le` says that a bounded number of counted steps
are taken in any run, whoever else moves in between, and `run_to_goal` that a run to the
goal exists; neither assumes that the parties take turns in any order.
-/
import Mathlib.Algebra.BigOperators.Group.List.Basic
import Mathlib.Data.List.DropRight
import PicoDsp.Lib.Transition

set_option autoImplicit false

namespace PicoDsp.Lib.Transition

variable {σ ℓ α : Type} {step : σ → ℓ → Option σ} {ok : σ → ℓ → Prop} {Inv : σ → Prop}

/-- **Conservation, in order.** A step that passes on what it gives out, and takes in at
the end, does so over a whole run. -/
theorem RunBy.conserves {s t : σ} {ls : List ℓ} (hrun : RunBy step ok s ls t)
    (out inp : ℓ → List α) (held : σ → List α)
    (hstep : ∀ s l s', Inv s → ok s l → step s l = some s' →
      Inv s' ∧ out l ++ held s' = held s ++ inp l)
    (hs : Inv s) : ls.flatMap out ++ held t = held s ++ ls.flatMap inp := by
  induction hrun with
  | nil s => exact (List.append_nil (held s)).symm
  | cons hok h _ ih =>
      obtain ⟨hinv, hlaw⟩ := hstep _ _ _ hs hok h
      rw [List.flatMap_cons, List.flatMap_cons, List.append_assoc, ih hinv, ← List.append_assoc,
        hlaw, List.append_assoc]

/-- **Conservation with losses.** A step that may drop some of what it passes on, and
changes no order, does so over a whole run. -/
theorem RunBy.thins_out {s t : σ} {ls : List ℓ} (hrun : RunBy step ok s ls t)
    (out inp : ℓ → List α) (held : σ → List α)
    (hstep : ∀ s l s', Inv s → ok s l → step s l = some s' →
      Inv s' ∧ (out l ++ held s').Sublist (held s ++ inp l))
    (hs : Inv s) : (ls.flatMap out ++ held t).Sublist (held s ++ ls.flatMap inp) := by
  induction hrun with
  | nil s => exact (List.append_nil (held s)).symm ▸ List.Sublist.refl (held s)
  | @cons s s' t l ls hok h _ ih =>
      obtain ⟨hinv, hlaw⟩ := hstep _ _ _ hs hok h
      have hrest := (ih hinv).append_left (out l)
      have hfirst := hlaw.append_right (ls.flatMap inp)
      rw [← List.append_assoc (out l) (held s')] at hrest
      rw [List.flatMap_cons, List.flatMap_cons, List.append_assoc, ← List.append_assoc (held s)]
      exact hrest.trans hfirst

/-- **Conservation, in number.** -/
theorem RunBy.balances {M : Type} [AddCommMonoid M] {s t : σ} {ls : List ℓ}
    (hrun : RunBy step ok s ls t) (out inp : ℓ → M) (held : σ → M)
    (hstep : ∀ s l s', ok s l → step s l = some s' → out l + held s' = held s + inp l) :
    (ls.map out).sum + held t = held s + (ls.map inp).sum := by
  induction hrun with
  | nil s => exact add_comm 0 (held s)
  | cons hok h _ ih =>
      rw [List.map_cons, List.map_cons, List.sum_cons, List.sum_cons, add_assoc, ih,
        ← add_assoc, hstep _ _ _ hok h, add_assoc]

/-- **A register with resets** holds what the steps since the last reset have put into
it. -/
theorem RunBy.register {β γ : Type} {reset : ℓ → Bool} {put : ℓ → List β} {f : γ → β → γ}
    {empty : γ} {s t : σ} {ls : List ℓ} (hrun : RunBy step ok s ls t) (reg : σ → γ)
    (hstep : ∀ s l s', ok s l → step s l = some s' →
      reg s' = if reset l then empty else (put l).foldl f (reg s))
    (hs : reg s = empty) :
    reg t = ((ls.rtakeWhile fun l => !reset l).flatMap put).foldl f empty := by
  refine @RunBy.invariant_trace _ _ _ _ (fun past s => reg s
    = ((past.rtakeWhile fun l => !reset l).flatMap put).foldl f empty) _ _ _ hrun ?_ hs
  intro past s l s' hpast hok h
  rw [hstep s l s' hok h, List.rtakeWhile_concat]
  cases hl : reset l with
  | true => simp
  | false =>
      simp only [Bool.false_eq_true, if_false, Bool.not_false, if_true]
      rw [List.flatMap_append, List.foldl_append, ← hpast, List.flatMap_singleton]

/-- **Bounded turns.** When the counted steps decrease a measure and the others do not
increase it, a run has no more counted steps than the measure says. -/
theorem RunBy.turns_le {s t : σ} {ls : List ℓ} (hrun : RunBy step ok s ls t)
    (counted : ℓ → Bool) (measure : σ → ℕ)
    (hstep : ∀ s l s', Inv s → ok s l → step s l = some s' →
      Inv s' ∧ measure s' + (if counted l then 1 else 0) ≤ measure s)
    (hs : Inv s) : (ls.filter counted).length + measure t ≤ measure s := by
  induction hrun with
  | nil s =>
      exact Nat.le_of_eq (Nat.zero_add (measure s))
  | @cons s s' t l ls hok h _ ih =>
      obtain ⟨hinv, hless⟩ := hstep _ _ _ hs hok h
      have hrest := ih hinv
      cases hl : counted l with
      | true =>
          rw [hl, if_pos rfl] at hless
          rw [List.filter_cons_of_pos hl, List.length_cons]
          omega
      | false =>
          rw [hl, if_neg Bool.false_ne_true] at hless
          rw [List.filter_cons_of_neg (Bool.not_eq_true _ ▸ hl)]
          omega

/-- **Coming to a goal.** When a step that is allowed and decreases a measure is always
there short of the goal, some run of allowed steps ends at the goal. -/
theorem run_to_goal {allowed : ℓ → Prop} {goal : σ → Prop} (measure : σ → ℕ)
    (hstep : ∀ s, Inv s → ¬ goal s →
      ∃ l s', allowed l ∧ step s l = some s' ∧ Inv s' ∧ measure s' < measure s)
    {s : σ} (hs : Inv s) :
    ∃ ls t, (∀ l ∈ ls, allowed l) ∧ run step s ls = some t ∧ Inv t ∧ goal t := by
  induction hm : measure s using Nat.strong_induction_on generalizing s with
  | h m ih =>
      by_cases hgoal : goal s
      · exact ⟨[], s, List.forall_mem_nil _, rfl, hs, hgoal⟩
      · obtain ⟨l, s', hl, hnext, hinv, hless⟩ := hstep s hs hgoal
        obtain ⟨ls, t, hls, hrun, ht⟩ := ih (measure s') (hm ▸ hless) hinv rfl
        exact ⟨l :: ls, t, List.forall_mem_cons.mpr ⟨hl, hls⟩, run_step hnext hrun, ht⟩

/-- **Steps without influence.** Two runs are kept side by side by `R`: a step that is
not seen stays in `R` alone, and a step that is seen can be taken on the other side. -/
theorem run_erase {seen : ℓ → Bool} {R : σ → σ → Prop} {s t u : σ} {ls : List ℓ}
    (hrun : run step s ls = some t)
    (hunseen : ∀ s l s' u, R s u → seen l = false → step s l = some s' → R s' u)
    (hseen : ∀ s l s' u, R s u → seen l = true → step s l = some s' →
      ∃ u', step u l = some u' ∧ R s' u')
    (hR : R s u) : ∃ v, run step u (ls.filter seen) = some v ∧ R t v := by
  induction ls generalizing s u with
  | nil =>
      rw [run_nil, Option.some.injEq] at hrun
      subst hrun
      exact ⟨u, rfl, hR⟩
  | cons l ls ih =>
      rw [run_cons, Option.bind_eq_some_iff] at hrun
      obtain ⟨s', hfirst, hrest⟩ := hrun
      cases hl : seen l with
      | true =>
          obtain ⟨u', hu, hR'⟩ := hseen _ _ _ _ hR hl hfirst
          obtain ⟨v, hv, hend⟩ := ih hrest hR'
          refine ⟨v, ?_, hend⟩
          rw [List.filter_cons_of_pos hl, run_cons, hu]
          exact hv
      | false =>
          obtain ⟨v, hv, hend⟩ := ih hrest (hunseen _ _ _ _ hR hl hfirst)
          refine ⟨v, ?_, hend⟩
          rw [List.filter_cons_of_neg (Bool.not_eq_true _ ▸ hl)]
          exact hv

end PicoDsp.Lib.Transition
