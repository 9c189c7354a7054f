/-
Keys, a pedal, and what sounds.

A keyboard is described twice. `HeldBy` and `SustainedBy` read the history of
events backwards, in terms of "since": a key is held since it was pressed, as
long as nothing released it. `Keyboard` is the state that decides the same
question event by event. The two agree on every history (`mem_held_iff`,
`mem_sustained_iff`). The first is what a player means and the second is what a program
can do, so a statement about an instrument is made with the first and proved with the
second.

"Since" is defined once (`Since`), for any two predicates on events, with the one rule
by which it goes through a history (`since_snoc`). Each agreement is then a one-step
fact about the state, in the form "it starts, or it keeps what was there", and an
induction over the history.

The third description, `track cap`, is a keyboard with room for `cap` sounding
keys: a press that finds no room is not noticed. What it tracks always sounds
(`tracked_subset`), and as long as every press finds room it tracks everything
(`tracked_eq_of_room`). The relation between the two keyboards is `Part`: the small one
holds some of the keys, and sustains some of them, under the same pedal. It is kept by
every event, noticed or not.

A key that is released is followed by itself: `holdsKey` is the keyboard of one key, and
until the pedal is lifted it is enough (`sounding_foldl_track`). Keys are any type with
decidable equality, and the state carries the two facts that make it a keyboard: no key is
both held and sustained, and none is sustained with the pedal up.
-/
import Mathlib.Data.Finset.Card

set_option autoImplicit false

namespace PicoDsp.Lib

/-! ## Since -/

section Since

variable {ε : Type}

/-- Some event of the history meets `start` (with the history before it), and
every later one meets `keep`. -/
def Since (start : List ε → ε → Prop) (keep : ε → Prop) (es : List ε) : Prop :=
  ∃ pre e post, es = pre ++ e :: post ∧ start pre e ∧ ∀ x ∈ post, keep x

/-- In an empty history nothing started. -/
theorem since_nil {start : List ε → ε → Prop} {keep : ε → Prop} : ¬ Since start keep [] := by
  rintro ⟨pre, e, post, h, -⟩
  exact absurd h.symm (List.append_ne_nil_of_right_ne_nil _ (List.cons_ne_nil _ _))

/-- One more event: it starts, or it keeps what was there. -/
theorem since_snoc {start : List ε → ε → Prop} {keep : ε → Prop} (es : List ε) (e : ε) :
    Since start keep (es ++ [e]) ↔ start es e ∨ (Since start keep es ∧ keep e) := by
  constructor
  · rintro ⟨pre, x, post, heq, hstart, hkeep⟩
    -- the start is the last event, or lies before it
    rcases List.eq_nil_or_concat post with rfl | ⟨post', y, rfl⟩
    · obtain ⟨hpre, hx⟩ := List.append_inj' heq rfl
      rw [List.singleton_inj] at hx
      rw [hpre, hx]
      exact Or.inl hstart
    · rw [List.concat_eq_append, ← List.cons_append, ← List.append_assoc] at heq
      obtain ⟨hes, hy⟩ := List.append_inj' heq rfl
      rw [List.singleton_inj] at hy
      rw [List.concat_eq_append] at hkeep
      refine Or.inr ⟨⟨pre, x, post', hes, hstart, ?_⟩, ?_⟩
      · intro z hz
        exact hkeep z (List.mem_append_left _ hz)
      · rw [hy]
        exact hkeep y (List.mem_append_right _ (List.mem_singleton_self y))
  · rintro (hstart | ⟨⟨pre, x, post, rfl, hstart, hkeep⟩, he⟩)
    · refine ⟨es, e, [], rfl, hstart, ?_⟩
      simp
    · refine ⟨pre, x, post ++ [e], by simp, hstart, ?_⟩
      intro z hz
      rcases List.mem_append.mp hz with h | h
      · exact hkeep z h
      · rw [List.mem_singleton.mp h]
        exact he

end Since

/-! ## Histories -/

/-- What happens at a keyboard. -/
inductive KeyEvent (κ : Type)
  | press (k : κ)
  | release (k : κ)
  | pedal (down : Bool)
  | clear
  | other
  deriving DecidableEq

section History

variable {κ : Type}

/-- The key was pressed and not released since. -/
def HeldBy (es : List (KeyEvent κ)) (k : κ) : Prop :=
  Since (fun _ e => e = .press k) (fun e => e ≠ .release k ∧ e ≠ .clear) es

/-- The pedal went down and not up since. -/
def PedalDown (es : List (KeyEvent κ)) : Prop :=
  Since (fun _ e => e = .pedal true) (fun e => e ≠ .pedal false ∧ e ≠ .clear) es

/-- The key was released with the pedal down; since then it was not pressed
again and the pedal did not go up. -/
def SustainedBy (es : List (KeyEvent κ)) (k : κ) : Prop :=
  Since (fun pre e => e = .release k ∧ HeldBy pre k ∧ PedalDown pre)
    (fun e => e ≠ .press k ∧ e ≠ .pedal false ∧ e ≠ .clear) es

/-- The last event of the key is a release. -/
def LastReleased (es : List (KeyEvent κ)) (k : κ) : Prop :=
  Since (fun _ e => e = .release k) (fun e => e ≠ .press k) es

end History

/-! ## The keyboard as a state -/

/-- No key is both held and sustained, and with the pedal up none is sustained. -/
structure Keyboard (κ : Type) where
  held : Finset κ
  sustained : Finset κ
  pedal : Bool
  disjoint : Disjoint held sustained
  pedal_up : pedal = false → sustained = ∅

namespace Keyboard

variable {κ : Type} [DecidableEq κ]

/-- The keys that sound. -/
def sounding (s : Keyboard κ) : Finset κ := s.held ∪ s.sustained

def new : Keyboard κ := ⟨∅, ∅, false, Finset.disjoint_empty_left _, fun _ => rfl⟩

def press (s : Keyboard κ) (k : κ) : Keyboard κ where
  held := insert k s.held
  sustained := s.sustained.erase k
  pedal := s.pedal
  disjoint := by
    rw [Finset.disjoint_insert_left]
    exact ⟨Finset.notMem_erase k _, s.disjoint.mono_right (Finset.erase_subset _ _)⟩
  pedal_up h := by rw [s.pedal_up h, Finset.erase_empty]

/-- A release of a held key. -/
def letGo (s : Keyboard κ) (k : κ) : Keyboard κ where
  held := s.held.erase k
  sustained := if s.pedal then insert k s.sustained else s.sustained
  pedal := s.pedal
  disjoint := by
    have hmono := s.disjoint.mono_left (Finset.erase_subset k _)
    split
    · rw [Finset.disjoint_insert_right]
      exact ⟨Finset.notMem_erase k _, hmono⟩
    · exact hmono
  pedal_up h := by
    rw [h, if_neg Bool.false_ne_true]
    exact s.pedal_up h

def release (s : Keyboard κ) (k : κ) : Keyboard κ := if k ∈ s.held then s.letGo k else s

def setPedal (s : Keyboard κ) (down : Bool) : Keyboard κ where
  held := s.held
  sustained := if down then s.sustained else ∅
  pedal := down
  disjoint := by
    split
    · exact s.disjoint
    · exact Finset.disjoint_empty_right _
  pedal_up h := by rw [h, if_neg Bool.false_ne_true]

def step (s : Keyboard κ) : KeyEvent κ → Keyboard κ
  | .press k => s.press k
  | .release k => s.release k
  | .pedal down => s.setPedal down
  | .clear => new
  | .other => s

/-- The press of `k` is noticed by a keyboard with room for `cap` keys. -/
def Room (cap : ℕ) (s : Keyboard κ) (k : κ) : Prop := k ∈ s.sounding ∨ s.sounding.card < cap

instance (cap : ℕ) (s : Keyboard κ) (k : κ) : Decidable (s.Room cap k) :=
  inferInstanceAs (Decidable (k ∈ s.sounding ∨ s.sounding.card < cap))

/-- A step with room for `cap` sounding keys. -/
def track (cap : ℕ) (s : Keyboard κ) : KeyEvent κ → Keyboard κ
  | .press k => if s.Room cap k then s.press k else s
  | e => s.step e

/-- A step that finds room is a step. -/
theorem track_of_room {cap : ℕ} {s : Keyboard κ} {e : KeyEvent κ}
    (h : ∀ k, e = .press k → s.Room cap k) : s.track cap e = s.step e := by
  cases e with
  | press k => exact if_pos (h k rfl)
  | release k => rfl
  | pedal down => rfl
  | clear => rfl
  | other => rfl

/-- A press that finds none is not noticed. -/
theorem track_of_full {cap : ℕ} {s : Keyboard κ} {k : κ} (h : ¬ s.Room cap k) :
    s.track cap (.press k) = s := if_neg h

/-- The keyboard after a history. -/
def after (es : List (KeyEvent κ)) : Keyboard κ := es.foldl step new

/-- The keys tracked after a history. -/
def tracked (cap : ℕ) (es : List (KeyEvent κ)) : Keyboard κ := es.foldl (track cap) new

@[simp] theorem after_nil : after ([] : List (KeyEvent κ)) = new := rfl

/-- One event more. -/
theorem after_snoc (es : List (KeyEvent κ)) (e : KeyEvent κ) :
    after (es ++ [e]) = (after es).step e := by
  rw [after, List.foldl_append]
  rfl

@[simp] theorem tracked_nil (cap : ℕ) : tracked cap ([] : List (KeyEvent κ)) = new := rfl

/-- One event more, with bounded room. -/
theorem tracked_snoc (cap : ℕ) (es : List (KeyEvent κ)) (e : KeyEvent κ) :
    tracked cap (es ++ [e]) = (tracked cap es).track cap e := by
  rw [tracked, List.foldl_append]
  rfl

/-- A key sounds while it is held or sustained. -/
theorem mem_sounding {s : Keyboard κ} {k : κ} :
    k ∈ s.sounding ↔ k ∈ s.held ∨ k ∈ s.sustained := Finset.mem_union

/-- A press makes its key sound and changes nothing for the others. -/
theorem mem_sounding_press {s : Keyboard κ} {j k : κ} :
    j ∈ (s.press k).sounding ↔ j = k ∨ j ∈ s.sounding := by
  simp only [mem_sounding, press, Finset.mem_insert, Finset.mem_erase]
  tauto

omit [DecidableEq κ] in
/-- A held key is not sustained. -/
theorem notMem_sustained {s : Keyboard κ} {k : κ} (h : k ∈ s.held) : k ∉ s.sustained :=
  Finset.disjoint_left.mp s.disjoint h

/-- With a held key there is room for one more sustained one. -/
theorem sustained_card_lt {s : Keyboard κ} {k : κ} (h : k ∈ s.held) :
    s.sustained.card < s.sounding.card := by
  apply Finset.card_lt_card
  have hsub : s.sustained ⊆ s.sounding := Finset.subset_union_right
  rw [Finset.ssubset_iff_of_subset hsub]
  exact ⟨k, mem_sounding.mpr (Or.inl h), notMem_sustained h⟩

omit [DecidableEq κ] in
/-- The fields that matter. -/
theorem eq_of_fields {s s' : Keyboard κ} (hheld : s.held = s'.held)
    (hsustained : s.sustained = s'.sustained) (hpedal : s.pedal = s'.pedal) : s = s' := by
  obtain ⟨held, sustained, pedal, _, _⟩ := s
  subst hheld hsustained hpedal
  rfl

/-! ### Membership after a step -/

/-- A key is held when it is pressed, and until it is released or everything is. -/
theorem mem_held_step {s : Keyboard κ} {e : KeyEvent κ} {k : κ} :
    k ∈ (s.step e).held ↔ e = .press k ∨ (k ∈ s.held ∧ e ≠ .release k ∧ e ≠ .clear) := by
  cases e with
  | press j =>
      simp only [step, press, Finset.mem_insert, KeyEvent.press.injEq, ne_eq, reduceCtorEq,
        not_false_eq_true, and_true, eq_comm]
  | release j =>
      simp only [step, release]
      by_cases hj : j ∈ s.held
      · simp only [if_pos hj, letGo, Finset.mem_erase, reduceCtorEq, false_or, ne_eq,
          KeyEvent.release.injEq, not_false_eq_true, and_true]
        tauto
      · simp only [if_neg hj, reduceCtorEq, false_or, ne_eq, KeyEvent.release.injEq,
          not_false_eq_true, and_true]
        constructor
        · intro hk
          refine ⟨hk, ?_⟩
          rintro rfl
          exact hj hk
        · exact And.left
  | pedal down => simp [step, setPedal]
  | clear => simp [step, new]
  | other => simp [step]

/-- A released key is not held. -/
theorem notMem_held_release (s : Keyboard κ) (k : κ) : k ∉ (s.release k).held := by
  unfold release
  split
  · exact Finset.notMem_erase k s.held
  · assumption

/-- The pedal is down when it goes down, and until it goes up. -/
theorem pedal_step {s : Keyboard κ} {e : KeyEvent κ} :
    (s.step e).pedal = true ↔
      e = .pedal true ∨ (s.pedal = true ∧ e ≠ .pedal false ∧ e ≠ .clear) := by
  cases e with
  | press j => simp [step, press]
  | release j =>
      have hpedal : (s.release j).pedal = s.pedal := by
        unfold release
        split
        · rfl
        · rfl
      simp [step, hpedal]
  | pedal down => cases down <;> simp [step, setPedal]
  | clear => simp [step, new]
  | other => simp [step]

/-- A key is sustained when it is released under the pedal, and until it is pressed again or
the pedal goes up. -/
theorem mem_sustained_step {s : Keyboard κ} {e : KeyEvent κ} {k : κ} :
    k ∈ (s.step e).sustained ↔
      (e = .release k ∧ k ∈ s.held ∧ s.pedal = true)
        ∨ (k ∈ s.sustained ∧ e ≠ .press k ∧ e ≠ .pedal false ∧ e ≠ .clear) := by
  cases e with
  | press j =>
      simp only [step, press, Finset.mem_erase, reduceCtorEq, false_and, false_or, ne_eq,
        KeyEvent.press.injEq, not_false_eq_true, and_true, eq_comm]
      tauto
  -- the only event that sustains a key
  | release j =>
      simp only [step, release]
      by_cases hj : j ∈ s.held
      · -- with the pedal down the key goes from held to sustained
        by_cases hpedal : s.pedal = true
        · simp only [if_pos hj, letGo, hpedal, if_true, Finset.mem_insert, KeyEvent.release.injEq,
            and_true, ne_eq, reduceCtorEq, not_false_eq_true]
          constructor
          · rintro (rfl | hk)
            · exact Or.inl ⟨rfl, hj⟩
            · exact Or.inr hk
          · rintro (⟨rfl, -⟩ | hk)
            · exact Or.inl rfl
            · exact Or.inr hk
        · simp [if_pos hj, letGo, hpedal]
      · simp only [if_neg hj, KeyEvent.release.injEq, ne_eq, reduceCtorEq, not_false_eq_true,
          and_true]
        constructor
        · exact Or.inr
        · rintro (⟨rfl, hk, -⟩ | hk)
          · exact absurd hk hj
          · exact hk
  | pedal down => cases down <;> simp [step, setPedal]
  | clear => simp [step, new]
  | other => simp [step]

/-! ### The state and the history -/

/-- The keys that are held, from the history. -/
theorem mem_held_iff {es : List (KeyEvent κ)} {k : κ} : k ∈ (after es).held ↔ HeldBy es k := by
  induction es using List.reverseRecOn with
  | nil =>
      rw [after_nil]
      exact iff_of_false (Finset.notMem_empty k) since_nil
  | append_singleton es e ih =>
      have hlast : HeldBy (es ++ [e]) k
          ↔ e = .press k ∨ (HeldBy es k ∧ e ≠ .release k ∧ e ≠ .clear) := since_snoc es e
      rw [after_snoc, mem_held_step, ih, hlast]

/-- The pedal, from the history. -/
theorem pedal_iff {es : List (KeyEvent κ)} : (after es).pedal = true ↔ PedalDown es := by
  induction es using List.reverseRecOn with
  | nil =>
      rw [after_nil]
      exact iff_of_false Bool.false_ne_true since_nil
  | append_singleton es e ih =>
      have hlast : PedalDown (es ++ [e])
          ↔ e = .pedal true ∨ (PedalDown es ∧ e ≠ .pedal false ∧ e ≠ .clear) := since_snoc es e
      rw [after_snoc, pedal_step, ih, hlast]

/-- The keys that are sustained, from the history. What starts this is a release of a held
key under the pedal, so the step uses both agreements above. -/
theorem mem_sustained_iff {es : List (KeyEvent κ)} {k : κ} :
    k ∈ (after es).sustained ↔ SustainedBy es k := by
  induction es using List.reverseRecOn with
  | nil =>
      rw [after_nil]
      exact iff_of_false (Finset.notMem_empty k) since_nil
  | append_singleton es e ih =>
      have hlast : SustainedBy (es ++ [e]) k
          ↔ (e = .release k ∧ HeldBy es k ∧ PedalDown es)
            ∨ (SustainedBy es k ∧ e ≠ .press k ∧ e ≠ .pedal false ∧ e ≠ .clear) := since_snoc es e
      rw [after_snoc, mem_sustained_step, ih, mem_held_iff, pedal_iff, hlast]

/-- **The keys that sound, from the history.** -/
theorem mem_sounding_iff {es : List (KeyEvent κ)} {k : κ} :
    k ∈ (after es).sounding ↔ HeldBy es k ∨ SustainedBy es k := by
  rw [mem_sounding, mem_held_iff, mem_sustained_iff]

/-! ### One key alone -/

/-- Whether the key is held, event by event. -/
def holdsKey (k : κ) (held : Bool) : KeyEvent κ → Bool
  | .press j => held || decide (j = k)
  | .release j => held && !decide (j = k)
  | .clear => false
  | _ => held

/-- One event at a key by itself, in the form of `mem_held_step`. -/
theorem holdsKey_iff {k : κ} {held : Bool} {e : KeyEvent κ} :
    holdsKey k held e = true ↔ e = .press k ∨ (held = true ∧ e ≠ .release k ∧ e ≠ .clear) := by
  cases e with
  | press j => simp [holdsKey, or_comm]
  | release j => simp [holdsKey]
  | pedal down => simp [holdsKey]
  | clear => simp [holdsKey]
  | other => simp [holdsKey]

/-- A key that is held only if another one is stays so. -/
theorem foldl_holdsKey_mono {k : κ} {held held' : Bool} (h : held = true → held' = true)
    (es : List (KeyEvent κ)) :
    es.foldl (holdsKey k) held = true → es.foldl (holdsKey k) held' = true := by
  induction es generalizing held held' with
  | nil => exact h
  | cons e es ih =>
      apply ih
      rw [holdsKey_iff, holdsKey_iff]
      exact Or.imp_right fun hkeeps => ⟨h hkeeps.1, hkeeps.2⟩

/-- A key that is held and was not struck was held before. -/
theorem held_of_foldl {k : κ} {held : Bool} {es : List (KeyEvent κ)} (hes : ∀ e ∈ es, e ≠ .press k)
    (h : es.foldl (holdsKey k) held = true) : held = true := by
  induction es generalizing held with
  | nil => exact h
  | cons e es ih =>
      have hfirst := ih (fun x hx => hes x (List.mem_cons_of_mem e hx)) h
      rw [holdsKey_iff] at hfirst
      exact (hfirst.resolve_left (hes e List.mem_cons_self)).1

/-- A key that is not held at first is held when the history says so. -/
theorem foldl_holdsKey_iff {k : κ} {es : List (KeyEvent κ)} :
    es.foldl (holdsKey k) false = true ↔ HeldBy es k := by
  induction es using List.reverseRecOn with
  | nil => exact iff_of_false Bool.false_ne_true since_nil
  | append_singleton es e ih =>
      have hlast : HeldBy (es ++ [e]) k
          ↔ e = .press k ∨ (HeldBy es k ∧ e ≠ .release k ∧ e ≠ .clear) := since_snoc es e
      rw [List.foldl_append, List.foldl_cons, List.foldl_nil, holdsKey_iff, ih, hlast]

/-- The key on a keyboard with bounded room. -/
theorem holdsKey_of_track {cap : ℕ} {s : Keyboard κ} {e : KeyEvent κ} {k : κ}
    (h : k ∈ (s.track cap e).held) : holdsKey k (decide (k ∈ s.held)) e = true := by
  rw [holdsKey_iff, decide_eq_true_eq]
  by_cases hroom : ∀ j, e = .press j → s.Room cap j
  · rwa [track_of_room hroom, mem_held_step] at h
  · push Not at hroom
    obtain ⟨j, rfl, hfull⟩ := hroom
    rw [track_of_full hfull] at h
    exact Or.inr ⟨h, nofun, nofun⟩

/-- Only the pedal brings the pedal down. -/
theorem pedal_of_track {cap : ℕ} {s : Keyboard κ} {e : KeyEvent κ}
    (h : (s.track cap e).pedal = true) : e = .pedal true ∨ s.pedal = true := by
  by_cases hroom : ∀ j, e = .press j → s.Room cap j
  · rw [track_of_room hroom, pedal_step] at h
    exact h.imp_right And.left
  · push Not at hroom
    obtain ⟨j, rfl, hfull⟩ := hroom
    rw [track_of_full hfull] at h
    exact Or.inr h

/-- With the pedal up only held keys sound. -/
theorem sounding_of_pedal_up {s : Keyboard κ} (h : s.pedal = false) :
    s.sounding = s.held := by
  rw [sounding, s.pedal_up h, Finset.union_empty]

/-! ### A key that sounds under the pedal -/

/-- A key that sounds is noticed. -/
theorem held_track_iff {cap : ℕ} {s : Keyboard κ} {k : κ} (hk : k ∈ s.sounding) (e : KeyEvent κ) :
    k ∈ (s.track cap e).held ↔ holdsKey k (decide (k ∈ s.held)) e = true := by
  by_cases hroom : ∀ j, e = .press j → s.Room cap j
  · rw [track_of_room hroom, mem_held_step, holdsKey_iff, decide_eq_true_eq]
  · -- the press that is not noticed is one of another key
    push Not at hroom
    obtain ⟨j, rfl, hfull⟩ := hroom
    have hne : KeyEvent.press j ≠ .press k := by
      rintro heq
      rw [KeyEvent.press.injEq] at heq
      exact hfull (Or.inl (heq ▸ hk))
    rw [track_of_full hfull, holdsKey_iff, decide_eq_true_eq, or_iff_right hne]
    simp

/-- It goes on sounding as long as the pedal stays down. -/
theorem sounding_track (cap : ℕ) {s : Keyboard κ} {k : κ} (hk : k ∈ s.sounding)
    (hdown : s.pedal = true) {e : KeyEvent κ} (hup : e ≠ .pedal false) (hclear : e ≠ .clear) :
    k ∈ (s.track cap e).sounding ∧ (s.track cap e).pedal = true := by
  by_cases hroom : ∀ j, e = .press j → s.Room cap j
  · rw [track_of_room hroom]
    refine ⟨?_, pedal_step.mpr (Or.inr ⟨hdown, hup, hclear⟩)⟩
    rw [mem_sounding, mem_held_step, mem_sustained_step]
    rcases mem_sounding.mp hk with hheld | hsustained
    · by_cases hrelease : e = .release k
      · exact Or.inr (Or.inl ⟨hrelease, hheld, hdown⟩)
      · exact Or.inl (Or.inr ⟨hheld, hrelease, hclear⟩)
    · by_cases hpress : e = .press k
      · exact Or.inl (Or.inl hpress)
      · exact Or.inr (Or.inr ⟨hsustained, hpress, hup, hclear⟩)
  · push Not at hroom
    obtain ⟨j, rfl, hfull⟩ := hroom
    rw [track_of_full hfull]
    exact ⟨hk, hdown⟩

/-- A history without a lift: the key sounds, and it is held when the history says so. -/
theorem sounding_foldl_track (cap : ℕ) {s : Keyboard κ} {k : κ} (hk : k ∈ s.sounding)
    (hdown : s.pedal = true) {es : List (KeyEvent κ)}
    (hes : ∀ e ∈ es, e ≠ .pedal false ∧ e ≠ .clear) :
    k ∈ (es.foldl (track cap) s).sounding
      ∧ (k ∈ (es.foldl (track cap) s).held
        ↔ es.foldl (holdsKey k) (decide (k ∈ s.held)) = true) := by
  induction es generalizing s with
  | nil => exact ⟨hk, decide_eq_true_iff.symm⟩
  | cons e es ih =>
      obtain ⟨hup, hclear⟩ := hes e List.mem_cons_self
      obtain ⟨hsounds, hstays⟩ := sounding_track cap hk hdown hup hclear
      have hheld : decide (k ∈ (s.track cap e).held) = holdsKey k (decide (k ∈ s.held)) e := by
        rw [Bool.eq_iff_iff, decide_eq_true_eq]
        exact held_track_iff hk e
      have hrest := ih hsounds hstays fun x hx => hes x (List.mem_cons_of_mem e hx)
      rwa [hheld] at hrest

/-- What a keyboard with bounded room holds is held by the history. -/
theorem foldl_holdsKey_of_track {cap : ℕ} {s : Keyboard κ} {es : List (KeyEvent κ)} {k : κ}
    (h : k ∈ (es.foldl (track cap) s).held) :
    es.foldl (holdsKey k) (decide (k ∈ s.held)) = true := by
  induction es generalizing s with
  | nil => exact decide_eq_true h
  | cons e es ih =>
      refine foldl_holdsKey_mono (fun hheld => ?_) es (ih h)
      rw [decide_eq_true_eq] at hheld
      exact holdsKey_of_track hheld

/-- A key that is not held and not struck is not held later. -/
theorem not_held_foldl_track {cap : ℕ} {s : Keyboard κ} {k : κ} (hk : k ∉ s.held)
    {es : List (KeyEvent κ)} (hes : ∀ e ∈ es, e ≠ .press k) :
    k ∉ (es.foldl (track cap) s).held := by
  intro h
  have hheld := held_of_foldl hes (foldl_holdsKey_of_track h)
  rw [decide_eq_true_eq] at hheld
  exact hk hheld

/-! ### Tracking with bounded room -/

/-- `s` tracks part of `s'`. -/
structure Part (s s' : Keyboard κ) : Prop where
  held : s.held ⊆ s'.held
  sustained : s.sustained ⊆ s'.sustained
  pedal : s.pedal = s'.pedal

/-- A step of both sides keeps the part a part. -/
theorem Part.step {s s' : Keyboard κ} (h : Part s s') (e : KeyEvent κ) :
    Part (s.step e) (s'.step e) := by
  refine ⟨?_, ?_, ?_⟩
  · intro k hk
    rw [mem_held_step] at hk ⊢
    exact hk.imp_right fun hk => ⟨h.held hk.1, hk.2⟩
  · intro k hk
    rw [mem_sustained_step] at hk ⊢
    rw [← h.pedal]
    exact hk.imp (fun hk => ⟨hk.1, h.held hk.2.1, hk.2.2⟩) fun hk => ⟨h.sustained hk.1, hk.2⟩
  · rw [Bool.eq_iff_iff, pedal_step, pedal_step, h.pedal]

/-- A press that only the full side notices. -/
theorem Part.press_right {s s' : Keyboard κ} (h : Part s s') {k : κ} (hk : k ∉ s.sounding) :
    Part s (s'.press k) := by
  rw [mem_sounding, not_or] at hk
  refine ⟨h.held.trans (Finset.subset_insert _ _), ?_, h.pedal⟩
  intro j hj
  rw [press, Finset.mem_erase]
  refine ⟨?_, h.sustained hj⟩
  rintro rfl
  exact hk.2 hj

/-- A step with bounded room keeps the part a part: where the press is not noticed, only the
full side changes. -/
theorem Part.track {s s' : Keyboard κ} (h : Part s s') (cap : ℕ) (e : KeyEvent κ) :
    Part (s.track cap e) (s'.step e) := by
  by_cases hroom : ∀ k, e = .press k → s.Room cap k
  · rw [track_of_room hroom]
    exact h.step e
  · push Not at hroom
    obtain ⟨k, rfl, hfull⟩ := hroom
    rw [track_of_full hfull]
    exact h.press_right fun hk => hfull (Or.inl hk)

/-- After any history the tracked keys are part of all keys. -/
theorem tracked_part (cap : ℕ) (es : List (KeyEvent κ)) : Part (tracked cap es) (after es) := by
  induction es using List.reverseRecOn with
  | nil => exact ⟨Finset.Subset.refl _, Finset.Subset.refl _, rfl⟩
  | append_singleton es e ih =>
      rw [tracked_snoc, after_snoc]
      exact ih.track cap e

/-- What sounds on the small side sounds on the full one. -/
theorem Part.sounding {s s' : Keyboard κ} (h : Part s s') : s.sounding ⊆ s'.sounding :=
  Finset.union_subset_union h.held h.sustained

/-- **What is tracked sounds.** -/
theorem tracked_subset (cap : ℕ) (es : List (KeyEvent κ)) :
    (tracked cap es).sounding ⊆ (after es).sounding :=
  (tracked_part cap es).sounding

/-- In silence nothing is missing. -/
theorem tracked_eq_of_silent {cap : ℕ} {es : List (KeyEvent κ)} (h : (after es).sounding = ∅) :
    tracked cap es = after es := by
  have hpart := tracked_part cap es
  obtain ⟨hheld, hsustained⟩ := Finset.union_eq_empty.mp h
  apply eq_of_fields
  · rw [hheld]
    exact Finset.subset_empty.mp (hheld ▸ hpart.held)
  · rw [hsustained]
    exact Finset.subset_empty.mp (hsustained ▸ hpart.sustained)
  · exact hpart.pedal

/-- Every press of `es`, which follows the history `past`, finds room. -/
def RoomThroughout (cap : ℕ) (past es : List (KeyEvent κ)) : Prop :=
  ∀ pre k post, es = pre ++ .press k :: post → (after (past ++ pre)).Room cap k

/-- **From silence on, as long as every press finds room, everything that sounds
is tracked.** -/
theorem tracked_eq_of_room {cap : ℕ} {past es : List (KeyEvent κ)}
    (hsilent : (after past).sounding = ∅) (hroom : RoomThroughout cap past es) :
    tracked cap (past ++ es) = after (past ++ es) := by
  induction es using List.reverseRecOn with
  | nil =>
      rw [List.append_nil]
      exact tracked_eq_of_silent hsilent
  | append_singleton es e ih =>
      have hprefix : RoomThroughout cap past es := by
        intro pre k post heq
        refine hroom pre k (post ++ [e]) ?_
        rw [heq, List.append_assoc, List.cons_append]
      rw [← List.append_assoc, tracked_snoc, after_snoc, ih hprefix]
      apply track_of_room
      rintro k rfl
      exact hroom es k [] rfl

end Keyboard

end PicoDsp.Lib
