/-
Programs that leave a trace.

A `Proc σ ε α` runs on a private state `σ`, emits events `ε` in program order
and ends with a value or with a panic. The panic keeps what was emitted before
it, which is what makes the trace a faithful record of an aborted run: a device
that halts half way through a handler has still done the first half. That is the
reason for a type of its own. A state monad over `Option` forgets the trace at a panic,
and with it the flash sector that was erased a moment before.

Three ways of reasoning are provided.

* `Proc.bind_some` and `Proc.bind_none` execute a program equationally: one run of the
  front, then one of the rest. The simp lemmas named after the primitives do the same
  where the front is one of them.
* `Triple` is the pre- and postcondition rule set, with a third clause, a predicate every
  emitted event satisfies. It says nothing about whether the program panics; the loop rule
  is the usual one, an invariant of the body.
* `Stays` is what is needed most often: some view of the state is as it was and all
  events are harmless. It follows the structure of a program without any annotation.

`zoom` runs the program of a component inside of its owner, and all three carry over.
Loops come in two kinds, `each` for a body that always goes on, and `firstSome` for a body
that may return a value out of the loop.
-/
import Mathlib.Data.List.Basic

set_option autoImplicit false

namespace PicoDsp.Lib

/-- A program over the private state `σ` that emits events `ε`; the second
component is `none` when the program panics. -/
def Proc (σ ε α : Type) : Type := σ → List ε × Option (α × σ)

namespace Proc

variable {σ τ ε η α β : Type}

/-- The events of a run, in program order. -/
def trace (m : Proc σ ε α) (s : σ) : List ε := (m s).1

/-- The state a run ends in, `none` after a panic. -/
def final (m : Proc σ ε α) (s : σ) : Option σ := (m s).2.map Prod.snd

instance : Monad (Proc σ ε) where
  pure a := fun s => ([], some (a, s))
  bind m f := fun s =>
    match m s with
    | (es, none) => (es, none)
    | (es, some (a, s')) => (es ++ (f a s').1, (f a s').2)

/-- Emit a list of events. -/
def emits (es : List ε) : Proc σ ε Unit := fun s => (es, some ((), s))

/-- Emit one event. -/
def emit (e : ε) : Proc σ ε Unit := emits [e]

/-- Read the private state. -/
def get : Proc σ ε σ := fun s => ([], some (s, s))

/-- Change the private state. -/
def modify (f : σ → σ) : Proc σ ε Unit := fun s => ([], some ((), f s))

/-- Stop for good. -/
def panic : Proc σ ε α := fun _ => ([], none)

/-- Run a program of a component `τ` inside the owner `σ` of that component. -/
def zoom (view : σ → τ) (put : τ → σ → σ) (lift : η → ε) (m : Proc τ η α) : Proc σ ε α :=
  fun s => ((m (view s)).1.map lift, (m (view s)).2.map fun r => (r.1, put r.2 s))

/-- Run a program on every element of a list, in order. -/
def each (f : β → Proc σ ε Unit) : List β → Proc σ ε Unit
  | [] => pure ()
  | b :: bs => do
      f b
      each f bs

/-- A loop whose body may return: it ends with the first value that a pass returns. -/
def firstSome (f : β → Proc σ ε (Option α)) : List β → Proc σ ε (Option α)
  | [] => pure none
  | b :: bs => do
      match ← f b with
      | some a => pure (some a)
      | none => firstSome f bs

/-! ## Executing a program -/

@[simp] theorem pure_run (a : α) (s : σ) : (pure a : Proc σ ε α) s = ([], some (a, s)) := rfl

@[simp] theorem emits_run (es : List ε) (s : σ) :
    (emits es : Proc σ ε Unit) s = (es, some ((), s)) := rfl

@[simp] theorem emit_run (e : ε) (s : σ) :
    (emit e : Proc σ ε Unit) s = ([e], some ((), s)) := rfl

@[simp] theorem get_run (s : σ) : (get : Proc σ ε σ) s = ([], some (s, s)) := rfl

@[simp] theorem modify_run (f : σ → σ) (s : σ) :
    (modify f : Proc σ ε Unit) s = ([], some ((), f s)) := rfl

@[simp] theorem panic_run (s : σ) : (panic : Proc σ ε α) s = ([], none) := rfl

/-- A program that ends hands its value and state to the continuation. -/
theorem bind_some {m : Proc σ ε α} {f : α → Proc σ ε β} {s s' : σ} {es : List ε} {a : α}
    (h : m s = (es, some (a, s'))) : (m >>= f) s = (es ++ (f a s').1, (f a s').2) := by
  show (match m s with
    | (es, none) => (es, none)
    | (es, some (a, s')) => (es ++ (f a s').1, (f a s').2)) = _
  rw [h]

/-- A program that panics runs no continuation. -/
theorem bind_none {m : Proc σ ε α} {f : α → Proc σ ε β} {s : σ} {es : List ε}
    (h : m s = (es, none)) : (m >>= f) s = (es, none) := by
  show (match m s with
    | (es, none) => (es, none)
    | (es, some (a, s')) => (es ++ (f a s').1, (f a s').2)) = _
  rw [h]

/-- A program that emits nothing leaves no trace in front of its continuation. -/
theorem bind_quiet {m : Proc σ ε α} {f : α → Proc σ ε β} {s s' : σ} {a : α}
    (h : m s = ([], some (a, s'))) : (m >>= f) s = f a s' := bind_some h

/-- Reading, emitting and modifying in front of a continuation. -/
@[simp] theorem get_bind_run (f : σ → Proc σ ε β) (s : σ) : (get >>= f) s = f s s := by
  rw [bind_some (get_run s)]
  rfl

@[simp] theorem emits_bind_run (es : List ε) (f : Unit → Proc σ ε β) (s : σ) :
    (emits es >>= f) s = (es ++ (f () s).1, (f () s).2) :=
  bind_some (emits_run es s)

@[simp] theorem emit_bind_run (e : ε) (f : Unit → Proc σ ε β) (s : σ) :
    (emit e >>= f) s = (e :: (f () s).1, (f () s).2) :=
  bind_some (emit_run e s)

@[simp] theorem modify_bind_run (g : σ → σ) (f : Unit → Proc σ ε β) (s : σ) :
    (modify g >>= f) s = f () (g s) := by
  rw [bind_some (modify_run g s)]
  rfl

/-- What a component's program does, in its owner. -/
theorem zoom_run (view : σ → τ) (put : τ → σ → σ) (lift : η → ε) (m : Proc τ η α) (s : σ) :
    zoom view put lift m s
      = ((m (view s)).1.map lift, (m (view s)).2.map fun r => (r.1, put r.2 s)) := rfl

@[simp] theorem each_nil_run (f : β → Proc σ ε Unit) (s : σ) :
    each f [] s = ([], some ((), s)) := rfl

/-- The first pass and the rest. -/
theorem each_cons (f : β → Proc σ ε Unit) (b : β) (bs : List β) :
    each f (b :: bs) = f b >>= fun _ => each f bs := rfl

/-- What a loop over two lists in a row does. -/
theorem each_append_run (f : β → Proc σ ε Unit) (bs cs : List β) (s : σ) :
    each f (bs ++ cs) s =
      match each f bs s with
      | (es, none) => (es, none)
      | (es, some (_, s')) => (es ++ (each f cs s').1, (each f cs s').2) := by
  induction bs generalizing s with
  | nil => rfl
  | cons b bs ih =>
      rw [List.cons_append, each_cons, each_cons]
      rcases hb : f b s with ⟨es, _ | ⟨_, s'⟩⟩
      · rw [bind_none hb, bind_none hb]
      · rw [bind_some hb, bind_some hb, ih s']
        rcases each f bs s' with ⟨fs, _ | ⟨_, s''⟩⟩
        · rfl
        · simp only [List.append_assoc]

/-- A loop over more elements goes on where the first ones ended. -/
theorem each_append_some {f : β → Proc σ ε Unit} {bs : List β} {s s' : σ} {es : List ε}
    (h : each f bs s = (es, some ((), s'))) (cs : List β) :
    each f (bs ++ cs) s = (es ++ (each f cs s').1, (each f cs s').2) := by
  rw [each_append_run, h]

/-- A loop that panics does not reach the elements behind. -/
theorem each_append_none {f : β → Proc σ ε Unit} {bs : List β} {s : σ} {es : List ε}
    (h : each f bs s = (es, none)) (cs : List β) :
    each f (bs ++ cs) s = (es, none) := by
  rw [each_append_run, h]

/-- A loop that ends has run its first pass and then the rest. -/
theorem each_cons_eq_some {f : β → Proc σ ε Unit} {b : β} {bs : List β} {s t : σ} {es : List ε}
    (h : each f (b :: bs) s = (es, some ((), t))) :
    ∃ es₁ s' es₂, f b s = (es₁, some ((), s')) ∧ each f bs s' = (es₂, some ((), t))
      ∧ es = es₁ ++ es₂ := by
  rw [each_cons] at h
  rcases hb : f b s with ⟨es₁, _ | ⟨⟨⟩, s'⟩⟩
  · rw [bind_none hb] at h
    cases h
  · rw [bind_some hb, Prod.mk.injEq] at h
    exact ⟨es₁, s', (each f bs s').1, rfl, Prod.ext rfl h.2, h.1.symm⟩

/-- A loop over two lists in a row that ends has run both. -/
theorem each_append_eq_some {f : β → Proc σ ε Unit} {bs cs : List β} {s t : σ} {es : List ε}
    (h : each f (bs ++ cs) s = (es, some ((), t))) :
    ∃ es₁ s' es₂, each f bs s = (es₁, some ((), s')) ∧ each f cs s' = (es₂, some ((), t))
      ∧ es = es₁ ++ es₂ := by
  rw [each_append_run] at h
  rcases hb : each f bs s with ⟨es₁, _ | ⟨⟨⟩, s'⟩⟩
  · rw [hb] at h
    cases h
  · rw [hb, Prod.mk.injEq] at h
    exact ⟨es₁, s', (each f cs s').1, rfl, Prod.ext rfl h.2, h.1.symm⟩

theorem each_singleton_run (f : β → Proc σ ε Unit) (b : β) (s : σ) :
    each f [b] s = f b s := by
  rw [each_cons]
  rcases h : f b s with ⟨es, _ | ⟨_, s'⟩⟩
  · rw [bind_none h]
  · rw [bind_some h, each_nil_run, List.append_nil]

/-- A loop whose body never panics runs to its end. -/
theorem each_run_of_total {f : β → Proc σ ε Unit} {t : β → List ε} {g : β → σ → σ} {bs : List β}
    (h : ∀ b ∈ bs, ∀ s, f b s = (t b, some ((), g b s))) (s : σ) :
    each f bs s = (bs.flatMap t, some ((), bs.foldl (fun s b => g b s) s)) := by
  induction bs generalizing s with
  | nil => rfl
  | cons b bs ih =>
      have hbs : ∀ c ∈ bs, ∀ s, f c s = (t c, some ((), g c s)) :=
        fun c hc => h c (List.mem_cons_of_mem b hc)
      rw [each_cons, bind_some (h b List.mem_cons_self s), ih hbs, List.flatMap_cons,
        List.foldl_cons]

/-- A loop goes on behind the passes that do nothing. -/
theorem firstSome_append {f : β → Proc σ ε (Option α)} {bs : List β} {s : σ}
    (h : ∀ b ∈ bs, f b s = ([], some (none, s))) (cs : List β) :
    firstSome f (bs ++ cs) s = firstSome f cs s := by
  induction bs with
  | nil => rfl
  | cons b bs ih =>
      rw [List.cons_append, firstSome, bind_quiet (h b List.mem_cons_self)]
      exact ih fun c hc => h c (List.mem_cons_of_mem b hc)

/-- A loop none of whose passes does anything. -/
theorem firstSome_none {f : β → Proc σ ε (Option α)} {bs : List β} {s : σ}
    (h : ∀ b ∈ bs, f b s = ([], some (none, s))) :
    firstSome f bs s = ([], some (none, s)) := by
  have hrun := firstSome_append h []
  rwa [List.append_nil] at hrun

/-- The first pass returns. -/
theorem firstSome_cons {f : β → Proc σ ε (Option α)} {b : β} {s s' : σ} {es : List ε} {a : α}
    (h : f b s = (es, some (some a, s'))) (bs : List β) :
    firstSome f (b :: bs) s = (es, some (some a, s')) := by
  rw [firstSome, bind_some h]
  exact Prod.ext (List.append_nil es) rfl

/-- A loop over the numbers below `n` that returns at `i`. -/
theorem firstSome_range {f : ℕ → Proc σ ε (Option α)} {n i : ℕ} {s s' : σ} {es : List ε} {a : α}
    (hi : i < n) (hbefore : ∀ j < i, f j s = ([], some (none, s)))
    (h : f i s = (es, some (some a, s'))) :
    firstSome f (List.range n) s = (es, some (some a, s')) := by
  have hlen : i < (List.range n).length := by rwa [List.length_range]
  have hsplit : List.range n = List.range i ++ i :: (List.range n).drop (i + 1) :=
    calc List.range n = (List.range n).take i ++ (List.range n).drop i :=
          (List.take_append_drop i _).symm
      _ = List.range i ++ i :: (List.range n).drop (i + 1) := by
          rw [List.take_range, Nat.min_eq_left (Nat.le_of_lt hi), List.drop_eq_getElem_cons hlen,
            List.getElem_range]
  have hskip : ∀ j ∈ List.range i, f j s = ([], some (none, s)) :=
    fun j hj => hbefore j (List.mem_range.mp hj)
  rw [hsplit, firstSome_append hskip]
  exact firstSome_cons h _

/-! ## Pre- and postconditions -/

/-- From a state that satisfies `pre` the program emits only events that
satisfy `ev`, and if it does not panic it ends with `post`. -/
def Triple (pre : σ → Prop) (m : Proc σ ε α) (ev : ε → Prop) (post : α → σ → Prop) : Prop :=
  ∀ s, pre s → (∀ e ∈ (m s).1, ev e) ∧ ∀ a s', (m s).2 = some (a, s') → post a s'

/-- The two clauses of a triple at one state, from the run there. -/
theorem ends_of_run {m : Proc σ ε α} {s s' : σ} {es : List ε} {a : α} {ev : ε → Prop}
    {post : α → σ → Prop} (h : m s = (es, some (a, s'))) (hev : ∀ e ∈ es, ev e)
    (hpost : post a s') :
    (∀ e ∈ (m s).1, ev e) ∧ ∀ b t, (m s).2 = some (b, t) → post b t := by
  rw [h]
  refine ⟨hev, ?_⟩
  intro b t hbt
  rw [Option.some.injEq, Prod.mk.injEq] at hbt
  obtain ⟨rfl, rfl⟩ := hbt
  exact hpost

/-- The rule of consequence. -/
theorem Triple.mono {pre pre' : σ → Prop} {m : Proc σ ε α} {ev ev' : ε → Prop}
    {post post' : α → σ → Prop} (h : Triple pre m ev post) (hpre : ∀ s, pre' s → pre s)
    (hev : ∀ e, ev e → ev' e) (hpost : ∀ a s, post a s → post' a s) :
    Triple pre' m ev' post' := by
  intro s hs
  obtain ⟨h₁, h₂⟩ := h s (hpre s hs)
  exact ⟨fun e he => hev e (h₁ e he), fun a s' hr => hpost a s' (h₂ a s' hr)⟩

/-- A value. -/
theorem Triple.pure {pre : σ → Prop} {ev : ε → Prop} {post : α → σ → Prop} {a : α}
    (h : ∀ s, pre s → post a s) : Triple pre (pure a) ev post := by
  intro s hs
  refine ⟨by simp, ?_⟩
  intro b s' hr
  simp only [pure_run, Option.some.injEq, Prod.mk.injEq] at hr
  obtain ⟨rfl, rfl⟩ := hr
  exact h s hs

/-- One program behind another. The events of both satisfy `ev`, and if the first one panics
nothing is to show about the second. -/
theorem Triple.bind {pre : σ → Prop} {ev : ε → Prop} {mid : α → σ → Prop}
    {post : β → σ → Prop} {m : Proc σ ε α} {f : α → Proc σ ε β} (hm : Triple pre m ev mid)
    (hf : ∀ a, Triple (mid a) (f a) ev post) : Triple pre (m >>= f) ev post := by
  intro s hs
  obtain ⟨he, hr⟩ := hm s hs
  rcases h : m s with ⟨es, _ | ⟨a, s'⟩⟩
  · rw [bind_none h]
    rw [h] at he
    exact ⟨he, by simp⟩
  · rw [bind_some h]
    rw [h] at he hr
    obtain ⟨he', hr'⟩ := hf a s' (hr a s' rfl)
    refine ⟨?_, hr'⟩
    intro e hmem
    rcases List.mem_append.mp hmem with h₁ | h₂
    · exact he e h₁
    · exact he' e h₂

/-- Events leave the state alone. -/
theorem Triple.emits {pre : σ → Prop} {ev : ε → Prop} {es : List ε} (h : ∀ e ∈ es, ev e) :
    Triple pre (emits es) ev (fun _ s => pre s) := by
  intro s hs
  refine ⟨h, ?_⟩
  rintro ⟨⟩ s' hr
  simp only [emits_run, Option.some.injEq, Prod.mk.injEq, true_and] at hr
  exact hr ▸ hs

/-- One event. -/
theorem Triple.emit {pre : σ → Prop} {ev : ε → Prop} {e : ε} (h : ev e) :
    Triple pre (emit e) ev (fun _ s => pre s) :=
  Triple.emits (by simpa using h)

/-- Reading leaves the state alone, and the value is the state. -/
theorem Triple.get {pre : σ → Prop} {ev : ε → Prop} :
    Triple pre (get : Proc σ ε σ) ev (fun a s => pre s ∧ a = s) := by
  intro s hs
  refine ⟨by simp, ?_⟩
  intro a s' hr
  simp only [get_run, Option.some.injEq, Prod.mk.injEq] at hr
  obtain ⟨rfl, rfl⟩ := hr
  exact ⟨hs, rfl⟩

/-- A change of the state. -/
theorem Triple.modify {pre : σ → Prop} {ev : ε → Prop} {post : Unit → σ → Prop} {g : σ → σ}
    (h : ∀ s, pre s → post () (g s)) : Triple pre (modify g) ev post := by
  intro s hs
  refine ⟨by simp, ?_⟩
  rintro ⟨⟩ s' hr
  simp only [modify_run, Option.some.injEq, Prod.mk.injEq, true_and] at hr
  exact hr ▸ h s hs

/-- A panic satisfies every postcondition. -/
theorem Triple.panic {pre : σ → Prop} {ev : ε → Prop} {post : α → σ → Prop} :
    Triple pre (panic : Proc σ ε α) ev post := by
  intro s _
  exact ⟨by simp, by simp⟩

/-- The loop rule: an invariant of the body is an invariant of the loop. -/
theorem Triple.each {Inv : σ → Prop} {ev : ε → Prop} {f : β → Proc σ ε Unit} {bs : List β}
    (h : ∀ b ∈ bs, Triple Inv (f b) ev (fun _ s => Inv s)) :
    Triple Inv (each f bs) ev (fun _ s => Inv s) := by
  induction bs with
  | nil => exact Triple.pure fun s hs => hs
  | cons b bs ih =>
      rw [each_cons]
      refine Triple.bind (h b (by simp)) fun _ => ih ?_
      intro c hc
      exact h c (by simp [hc])

/-- A component's program, seen from its owner. -/
theorem Triple.zoom {view : σ → τ} {put : τ → σ → σ} {lift : η → ε} {m : Proc τ η α}
    {pre : τ → Prop} {ev : η → Prop} {post : α → τ → Prop} {Pre : σ → Prop} {Ev : ε → Prop}
    {Post : α → σ → Prop} (h : Triple pre m ev post) (hpre : ∀ s, Pre s → pre (view s))
    (hev : ∀ e, ev e → Ev (lift e)) (hpost : ∀ s a t, Pre s → post a t → Post a (put t s)) :
    Triple Pre (zoom view put lift m) Ev Post := by
  intro s hs
  obtain ⟨he, hr⟩ := h (view s) (hpre s hs)
  refine ⟨?_, ?_⟩
  · intro e hmem
    rw [zoom_run, List.mem_map] at hmem
    obtain ⟨e', he', rfl⟩ := hmem
    exact hev e' (he e' he')
  · intro a s' heq
    rw [zoom_run, Option.map_eq_some_iff] at heq
    obtain ⟨⟨b, t⟩, hbt, hpair⟩ := heq
    simp only [Prod.mk.injEq] at hpair
    obtain ⟨rfl, rfl⟩ := hpair
    exact hpost s b t hs (hr b t hbt)

/-! ## What a program leaves alone -/

/-- The program emits only events that satisfy `ev`, and what `view` shows of
the state, `v`, is the same at its end. -/
def Stays (view : σ → τ) (v : τ) (ev : ε → Prop) (m : Proc σ ε α) : Prop :=
  Triple (fun s => view s = v) m ev (fun _ s => view s = v)

section Stays

variable {view : σ → τ} {v : τ} {ev : ε → Prop}

theorem Stays.pure (a : α) : Stays view v ev (Pure.pure a : Proc σ ε α) :=
  Triple.pure fun _ h => h

/-- The second program starts with the view that the first one has left alone, so no
annotation is needed between them. -/
theorem Stays.bind {m : Proc σ ε α} {f : α → Proc σ ε β} (hm : Stays view v ev m)
    (hf : ∀ a, Stays view v ev (f a)) : Stays view v ev (m >>= f) :=
  Triple.bind hm hf

theorem Stays.get : Stays view v ev (Proc.get : Proc σ ε σ) :=
  Triple.get.mono (fun _ h => h) (fun _ h => h) fun _ _ h => h.1

/-- A change that the view does not show. -/
theorem Stays.modify {g : σ → σ} (h : ∀ s, view (g s) = view s) :
    Stays view v ev (Proc.modify g : Proc σ ε Unit) := by
  apply Triple.modify
  intro s hs
  rw [h s, hs]

theorem Stays.emits {es : List ε} (h : ∀ e ∈ es, ev e) : Stays view v ev (Proc.emits es) :=
  Triple.emits h

theorem Stays.emit {e : ε} (h : ev e) : Stays view v ev (Proc.emit e) := Triple.emit h

/-- Both arms. -/
theorem Stays.ite {c : Prop} [Decidable c] {m m' : Proc σ ε α} (h : Stays view v ev m)
    (h' : Stays view v ev m') : Stays view v ev (if c then m else m') := by
  split
  · exact h
  · exact h'

/-- A component's program leaves alone what the component is no part of. -/
theorem Stays.zoom {κ : Type} {part : σ → κ} {put : κ → σ → σ} {lift : η → ε} {m : Proc κ η α}
    (hput : ∀ t s, view (put t s) = view s) (hev : ∀ e, ev (lift e)) :
    Stays view v ev (Proc.zoom part put lift m) := by
  have hany : Triple (fun _ => True) m (fun _ => True) (fun _ _ => True) :=
    fun _ _ => ⟨fun _ _ => trivial, fun _ _ _ => trivial⟩
  apply hany.zoom
  · intro s _
    trivial
  · intro e _
    exact hev e
  · intro s a t hs _
    rw [hput t s, hs]

end Stays

end Proc

end PicoDsp.Lib
