/-
Which of the sounding keys was struck last, and which began to sound last.

Both are read off the history by positions. `LastStruck` looks at the presses of
all sounding keys and takes a second press of a sounding key for a new one.
`StartedAfter` looks at the tracked keys only, and a second press does not start
a key again. A list of the tracked keys that is only appended to and taken from
is ordered by the second (`Ranked`).

The first is what a player means by last-note priority, and the second is what a stack
that drops repeated keys can know. They are the same order as long as no key is struck
again while it sounds and no key is missed for want of room. So they are kept apart here,
each with the rules by which it goes through one more event: for `LastStruck` a
press makes its key the last one (`lastStruck_press`) and an event that changes no sound
changes nothing (`lastStruck_snoc`); for `StartedAfter` what survives keeps its order
(`StartedAfter.snoc`) and a key that begins comes behind all others (`startedAfter_last`).

`Ranked.getLast_iff` is the bridge to a list: its last entry is the tracked key that no
other one began after. The capacity is a parameter, and the theorems about `LastStruck`
do not depend on it.
-/
import Mathlib.Data.Nat.Find
import PicoDsp.Lib.Keyboard

set_option autoImplicit false

namespace PicoDsp.Lib

variable {κ : Type} [DecidableEq κ]

/-! ## Struck last -/

/-- The key is held, or sustained by the pedal. -/
def Sounds (es : List (KeyEvent κ)) (k : κ) : Prop := HeldBy es k ∨ SustainedBy es k

/-- `k` sounds, and no sounding key was pressed after its last press. -/
def LastStruck (es : List (KeyEvent κ)) (k : κ) : Prop :=
  Sounds es k ∧ ∃ n : ℕ, es[n]? = some (KeyEvent.press k)
    ∧ ∀ (m : ℕ) (j : κ), n < m → es[m]? = some (KeyEvent.press j) → ¬ Sounds es j

/-- A key sounds exactly if it is on the keyboard after the history. -/
theorem sounds_iff {es : List (KeyEvent κ)} {k : κ} :
    Sounds es k ↔ k ∈ (Keyboard.after es).sounding := Keyboard.mem_sounding_iff.symm

omit [DecidableEq κ] in
/-- One key at most was struck last. -/
theorem LastStruck.unique {es : List (KeyEvent κ)} {k k' : κ} (h : LastStruck es k)
    (h' : LastStruck es k') : k = k' := by
  obtain ⟨hk, n, hn, hlast⟩ := h
  obtain ⟨hk', n', hn', hlast'⟩ := h'
  rcases Nat.lt_trichotomy n n' with hlt | rfl | hgt
  · exact absurd hk' (hlast n' k' hlt hn')
  · rw [hn, Option.some.injEq, KeyEvent.press.injEq] at hn'
    exact hn'
  · exact absurd hk (hlast' n k hgt hn)

omit [DecidableEq κ] in
/-- A held key was pressed. -/
theorem HeldBy.pressed {es : List (KeyEvent κ)} {k : κ} (h : HeldBy es k) :
    ∃ n : ℕ, es[n]? = some (KeyEvent.press k) := by
  obtain ⟨pre, e, post, rfl, rfl, -⟩ := h
  refine ⟨pre.length, ?_⟩
  rw [List.getElem?_append_right (Nat.le_refl _), Nat.sub_self]
  rfl

omit [DecidableEq κ] in
/-- A sounding key was pressed at some time. -/
theorem Sounds.pressed {es : List (KeyEvent κ)} {k : κ} (h : Sounds es k) :
    ∃ n : ℕ, es[n]? = some (KeyEvent.press k) := by
  rcases h with hheld | ⟨pre, e, post, rfl, ⟨rfl, hheld, -⟩, -⟩
  · exact hheld.pressed
  · obtain ⟨n, hn⟩ := hheld.pressed
    obtain ⟨hlt, -⟩ := List.getElem?_eq_some_iff.mp hn
    refine ⟨n, ?_⟩
    rw [List.getElem?_append_left hlt, hn]

omit [DecidableEq κ] in
/-- As long as something sounds, one of the sounding keys was struck last. -/
theorem exists_lastStruck {es : List (KeyEvent κ)} {k : κ} (h : Sounds es k) :
    ∃ j, LastStruck es j := by
  classical
  -- the last position of a press of a sounding key
  let IsStrike : ℕ → Prop := fun n => ∃ j, Sounds es j ∧ es[n]? = some (KeyEvent.press j)
  obtain ⟨n, hn⟩ := h.pressed
  have hbound : ∀ m, IsStrike m → m ≤ es.length := by
    rintro m ⟨j, -, hm⟩
    obtain ⟨hlt, -⟩ := List.getElem?_eq_some_iff.mp hm
    exact Nat.le_of_lt hlt
  have hstrike : IsStrike n := ⟨k, h, hn⟩
  have hspec := Nat.findGreatest_spec (hbound n hstrike) hstrike
  obtain ⟨j, hj, hlast⟩ := hspec
  refine ⟨j, hj, _, hlast, ?_⟩
  intro m i hlt hm hsound
  have hstrike' : IsStrike m := ⟨i, hsound, hm⟩
  have hle := Nat.le_findGreatest (hbound m hstrike') hstrike'
  exact absurd hlt (Nat.not_lt.mpr hle)

/-- A press makes its key the last one. -/
theorem lastStruck_press (es : List (KeyEvent κ)) (k : κ) : LastStruck (es ++ [.press k]) k := by
  refine ⟨?_, es.length, ?_, ?_⟩
  · rw [sounds_iff, Keyboard.after_snoc]
    exact Keyboard.mem_sounding_press.mpr (Or.inl rfl)
  · rw [List.getElem?_append_right (Nat.le_refl _), Nat.sub_self]
    rfl
  · intro m j hlt hm
    obtain ⟨hm', -⟩ := List.getElem?_eq_some_iff.mp hm
    rw [List.length_append, List.length_singleton] at hm'
    omega

omit [DecidableEq κ] in
/-- Positions before the last event, and the last event. -/
theorem getElem?_snoc_press {es : List (KeyEvent κ)} {e : KeyEvent κ} {n : ℕ} {k : κ}
    (he : ∀ j, e ≠ .press j) : (es ++ [e])[n]? = some (KeyEvent.press k) ↔ es[n]? = some (KeyEvent.press k) := by
  rcases Nat.lt_trichotomy n es.length with hlt | rfl | hgt
  · rw [List.getElem?_append_left hlt]
  · rw [List.getElem?_append_right (Nat.le_refl _), Nat.sub_self, List.getElem?_eq_none (Nat.le_refl _)]
    constructor
    · intro h
      rw [List.getElem?_cons_zero, Option.some.injEq] at h
      exact absurd h (he k)
    · intro h
      cases h
  · have hlong : (es ++ [e]).length ≤ n := by
      rw [List.length_append, List.length_singleton]
      omega
    rw [List.getElem?_eq_none hlong, List.getElem?_eq_none (Nat.le_of_lt hgt)]

omit [DecidableEq κ] in
/-- An event that is no press and changes no sound changes nothing. -/
theorem lastStruck_snoc {es : List (KeyEvent κ)} {e : KeyEvent κ} (he : ∀ j, e ≠ .press j)
    (hsame : ∀ j, Sounds (es ++ [e]) j ↔ Sounds es j) {k : κ} :
    LastStruck (es ++ [e]) k ↔ LastStruck es k := by
  unfold LastStruck
  simp only [hsame, getElem?_snoc_press he]

/-- Only a press makes a key sound. -/
theorem sounds_of_snoc {es : List (KeyEvent κ)} {e : KeyEvent κ} (he : ∀ j, e ≠ .press j) {k : κ}
    (h : Sounds (es ++ [e]) k) : Sounds es k := by
  rw [sounds_iff, Keyboard.after_snoc, Keyboard.mem_sounding, Keyboard.mem_held_step,
    Keyboard.mem_sustained_step] at h
  rw [sounds_iff, Keyboard.mem_sounding]
  rcases h with (hpress | ⟨hheld, -⟩) | ⟨-, hheld, -⟩ | ⟨hsustained, -⟩
  · exact absurd hpress (he k)
  · exact Or.inl hheld
  · exact Or.inl hheld
  · exact Or.inr hsustained

/-- A pedal that goes down silences nothing. -/
theorem sounds_pedal_down {es : List (KeyEvent κ)} {k : κ} :
    Sounds (es ++ [.pedal true]) k ↔ Sounds es k := by
  rw [sounds_iff, sounds_iff, Keyboard.after_snoc]
  exact Iff.rfl

/-- Nothing sounds after all keys were cleared. -/
theorem not_sounds_clear {es : List (KeyEvent κ)} {k : κ} : ¬ Sounds (es ++ [.clear]) k := by
  rw [sounds_iff, Keyboard.after_snoc]
  exact Finset.notMem_empty k

/-! ## Begun last -/

namespace Keyboard

/-- `j` began to be tracked while `k` was, and both have been since. -/
def StartedAfter (cap : ℕ) (es : List (KeyEvent κ)) (j k : κ) : Prop :=
  ∃ n, n < es.length ∧ j ∉ (tracked cap (es.take n)).sounding
    ∧ k ∈ (tracked cap (es.take n)).sounding
    ∧ ∀ m, n < m → m ≤ es.length →
        j ∈ (tracked cap (es.take m)).sounding ∧ k ∈ (tracked cap (es.take m)).sounding

/-- Of two keys one began before the other. -/
theorem StartedAfter.asymm {cap : ℕ} {es : List (KeyEvent κ)} {j k : κ}
    (h : StartedAfter cap es j k) : ¬ StartedAfter cap es k j := by
  obtain ⟨n, hn, hj, hk, hsince⟩ := h
  rintro ⟨n', hn', hk', hj', hsince'⟩
  rcases Nat.lt_trichotomy n n' with hlt | rfl | hgt
  · exact hk' (hsince n' hlt (Nat.le_of_lt hn')).2
  · exact hk' hk
  · exact hj (hsince' n hgt (Nat.le_of_lt hn)).2

/-- Both are tracked in the end. -/
theorem StartedAfter.both {cap : ℕ} {es : List (KeyEvent κ)} {j k : κ}
    (h : StartedAfter cap es j k) :
    j ∈ (tracked cap es).sounding ∧ k ∈ (tracked cap es).sounding := by
  obtain ⟨n, hn, -, -, hsince⟩ := h
  have hend := hsince es.length hn (Nat.le_refl _)
  rw [List.take_length] at hend
  exact hend

/-- One more event that both survive. -/
theorem StartedAfter.snoc {cap : ℕ} {es : List (KeyEvent κ)} {e : KeyEvent κ} {j k : κ}
    (h : StartedAfter cap es j k) (hj : j ∈ (tracked cap (es ++ [e])).sounding)
    (hk : k ∈ (tracked cap (es ++ [e])).sounding) : StartedAfter cap (es ++ [e]) j k := by
  obtain ⟨n, hn, hjn, hkn, hsince⟩ := h
  have htake : ∀ m, m ≤ es.length → (es ++ [e]).take m = es.take m :=
    fun m hm => List.take_append_of_le_length hm
  refine ⟨n, ?_, ?_, ?_, ?_⟩
  · rw [List.length_append]
    omega
  · rw [htake n (Nat.le_of_lt hn)]
    exact hjn
  · rw [htake n (Nat.le_of_lt hn)]
    exact hkn
  · intro m hlt hle
    rw [List.length_append, List.length_singleton] at hle
    by_cases hm : m ≤ es.length
    · rw [htake m hm]
      exact hsince m hlt hm
    · have hall : (es ++ [e]).take m = es ++ [e] := by
        apply List.take_of_length_le
        rw [List.length_append, List.length_singleton]
        omega
      rw [hall]
      exact ⟨hj, hk⟩

/-- A key that begins with the last event began after every other one. -/
theorem startedAfter_last {cap : ℕ} {es : List (KeyEvent κ)} {e : KeyEvent κ} {j k : κ}
    (hnew : j ∉ (tracked cap es).sounding) (hold : k ∈ (tracked cap es).sounding)
    (hj : j ∈ (tracked cap (es ++ [e])).sounding) (hk : k ∈ (tracked cap (es ++ [e])).sounding) :
    StartedAfter cap (es ++ [e]) j k := by
  have htake : (es ++ [e]).take es.length = es := List.take_left
  refine ⟨es.length, ?_, ?_, ?_, ?_⟩
  · rw [List.length_append, List.length_singleton]
    omega
  · rw [htake]
    exact hnew
  · rw [htake]
    exact hold
  · intro m hlt hle
    have hall : (es ++ [e]).take m = es ++ [e] := by
      apply List.take_of_length_le
      rw [List.length_append, List.length_singleton]
      omega
    rw [hall]
    exact ⟨hj, hk⟩

/-- The tracked keys, each after the ones it began after. -/
structure Ranked (cap : ℕ) (es : List (KeyEvent κ)) (l : List κ) : Prop where
  nodup : l.Nodup
  mem : ∀ k, k ∈ l ↔ k ∈ (tracked cap es).sounding
  ranked : l.Pairwise fun k j => StartedAfter cap es j k

theorem ranked_nil (cap : ℕ) : Ranked cap ([] : List (KeyEvent κ)) [] where
  nodup := List.nodup_nil
  mem k := by simp [tracked, sounding, new]
  ranked := List.Pairwise.nil

/-- Keys are taken out. -/
theorem Ranked.sublist {cap : ℕ} {es : List (KeyEvent κ)} {l l' : List κ} {e : KeyEvent κ}
    (h : Ranked cap es l) (hsub : l'.Sublist l)
    (hmem : ∀ k, k ∈ l' ↔ k ∈ (tracked cap (es ++ [e])).sounding) :
    Ranked cap (es ++ [e]) l' := by
  refine ⟨h.nodup.sublist hsub, hmem, ?_⟩
  have hpair := h.ranked.sublist hsub
  rw [List.pairwise_iff_getElem] at hpair ⊢
  intro i j hi hj hij
  apply (hpair i j hi hj hij).snoc
  · exact (hmem _).mp (List.getElem_mem hj)
  · exact (hmem _).mp (List.getElem_mem hi)

/-- A key is put behind the others. -/
theorem Ranked.append {cap : ℕ} {es : List (KeyEvent κ)} {l : List κ} {e : KeyEvent κ} {k : κ}
    (h : Ranked cap es l) (hnew : k ∉ l)
    (hmem : ∀ j, j ∈ l ++ [k] ↔ j ∈ (tracked cap (es ++ [e])).sounding) :
    Ranked cap (es ++ [e]) (l ++ [k]) := by
  have hk : k ∈ (tracked cap (es ++ [e])).sounding :=
    (hmem k).mp (List.mem_append_right _ (List.mem_singleton_self k))
  have hold : ∀ j ∈ l, j ∈ (tracked cap (es ++ [e])).sounding :=
    fun j hj => (hmem j).mp (List.mem_append_left _ hj)
  refine ⟨?_, hmem, ?_⟩
  · rw [List.nodup_append]
    refine ⟨h.nodup, List.nodup_singleton k, ?_⟩
    intro j hj i hi
    rw [List.mem_singleton] at hi
    rintro rfl
    rw [hi] at hj
    exact hnew hj
  · rw [List.pairwise_append]
    refine ⟨?_, List.pairwise_singleton _ _, ?_⟩
    · exact h.ranked.imp_of_mem fun hi hj hij => hij.snoc (hold _ hj) (hold _ hi)
    · intro j hj i hi
      rw [List.mem_singleton] at hi
      rw [hi]
      exact startedAfter_last (fun hin => hnew ((h.mem k).mpr hin)) ((h.mem j).mp hj) hk (hold j hj)

/-- **The last of the list is the tracked key that no other began after.** -/
theorem Ranked.getLast_iff {cap : ℕ} {es : List (KeyEvent κ)} {l : List κ} {k : κ}
    (h : Ranked cap es l) : l.getLast? = some k
      ↔ k ∈ (tracked cap es).sounding ∧ ¬ ∃ j, StartedAfter cap es j k := by
  rcases List.eq_nil_or_concat l with rfl | ⟨l', i, rfl⟩
  · constructor
    · intro hnone
      cases hnone
    · rintro ⟨hk, -⟩
      exact absurd ((h.mem k).mpr hk) List.not_mem_nil
  · rw [List.concat_eq_append] at h ⊢
    rw [List.getLast?_append_of_ne_nil _ (List.cons_ne_nil _ _), List.getLast?_singleton,
      Option.some.injEq]
    have hpair := (List.pairwise_append.mp h.ranked).2.2
    constructor
    · rintro rfl
      refine ⟨(h.mem i).mp (List.mem_append_right _ (List.mem_singleton_self i)), ?_⟩
      rintro ⟨j, hj⟩
      -- `j` is tracked, so it stands in the list, and not behind `i`
      have htracked := hj.both.1
      rw [← h.mem, List.mem_append, List.mem_singleton] at htracked
      rcases htracked with hin | rfl
      · exact hj.asymm (hpair j hin i (List.mem_singleton_self i))
      · exact hj.asymm hj
    · rintro ⟨hk, hlast⟩
      rw [← h.mem, List.mem_append, List.mem_singleton] at hk
      rcases hk with hin | rfl
      · exact absurd ⟨i, hpair k hin i (List.mem_singleton_self i)⟩ hlast
      · rfl

end Keyboard

end PicoDsp.Lib
