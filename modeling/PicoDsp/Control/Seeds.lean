/-
The live controls a preset seeds, control by control (`seed_from_preset` of
`control/midi.rs`).

A preset that is loaded, or from which `core1` builds a voice, stores 31 live controls
one after the other. `seed_from_preset` stores every one of them once, so what it leaves
in a control is found by looking the control up in its stores (`seedOf`). From that a
continuous controller is a change of one entry on both sides, and seeding again
after any controllers changes nothing.

This is what makes the two paths of an edit interchangeable. A continuous controller
writes a field of the working preset and the live control that belongs to it; a
structural one sends the whole preset, and the voice that is built from it seeds all
controls again, those that were turned in the meantime included. If seeding did not
give back the values that the controllers had stored, every structural edit would snap
knobs to other values.

`Agrees` says that the controls hold what a preset seeds. A load establishes it
(`seed_agrees`), every controller keeps it (`applied_agrees`, from `CcSpec.lean` by the
entry that the controller changes), and where it holds seeding is the identity
(`seed_of_agrees`). The theorem at the end puts the three together over any sequence
of controllers. A list with distinct keys is read by `List.lookup`, and the first
section has the two lemmas about it that are missing.
-/
import PicoDsp.Control.CcSpec

set_option autoImplicit false

namespace PicoDsp

open Lib

/-! ## Lists with distinct keys -/

section Lookup

variable {κ β : Type} [DecidableEq κ]

/-- A key that the list has not. -/
theorem lookup_eq_none_of_notMem {l : List (κ × β)} {k : κ} (h : k ∉ l.map Prod.fst) :
    l.lookup k = none := by
  rw [List.lookup_eq_none_iff]
  intro p hp
  rw [bne_iff_ne, ne_eq]
  intro heq
  exact h (List.mem_map.mpr ⟨p, hp, heq.symm⟩)

/-- In a list with distinct keys to look a key up is to find its entry. -/
theorem lookup_eq_some_iff_mem {l : List (κ × β)} (h : (l.map Prod.fst).Nodup) {k : κ} {v : β} :
    l.lookup k = some v ↔ (k, v) ∈ l := by
  induction l with
  | nil => simp
  | cons p l ih =>
      obtain ⟨j, w⟩ := p
      rw [List.map_cons, List.nodup_cons] at h
      rw [List.lookup_cons, List.mem_cons, Prod.mk.injEq]
      by_cases hkj : k = j
      · -- an entry of the rest would repeat the key
        have hrest : (k, v) ∉ l := by
          intro hmem
          exact h.1 (List.mem_map.mpr ⟨(k, v), hmem, hkj⟩)
        rw [beq_iff_eq.mpr hkj]
        simp [hkj, eq_comm]
        exact fun hmem => absurd (hkj ▸ hmem) hrest
      · rw [beq_eq_false_iff_ne.mpr hkj]
        simp [hkj, ih h.2]

/-- Lists with the same distinct keys, and the same value at each of them. -/
theorem eq_of_lookup {l m : List (κ × β)} (hkeys : l.map Prod.fst = m.map Prod.fst)
    (hnodup : (l.map Prod.fst).Nodup) (h : ∀ k ∈ l.map Prod.fst, l.lookup k = m.lookup k) :
    l = m := by
  induction l generalizing m with
  | nil => exact (List.map_eq_nil_iff.mp hkeys.symm).symm
  | cons jv l ih =>
      obtain ⟨j, v⟩ := jv
      cases m with
      | nil => cases hkeys
      | cons jw m =>
          obtain ⟨j', w⟩ := jw
          obtain ⟨rfl, hrest⟩ := List.cons.inj hkeys
          rw [List.map_cons, List.nodup_cons] at hnodup
          have hfirst : some v = some w := by
            simpa only [List.lookup_cons, beq_self_eq_true] using h j List.mem_cons_self
          have htail : l = m := by
            refine ih hrest hnodup.2 fun k hk => ?_
            have hne : (k == j) = false := beq_eq_false_iff_ne.mpr fun heq => hnodup.1 (heq ▸ hk)
            simpa only [List.lookup_cons, hne] using h k (List.mem_cons_of_mem j hk)
          rw [Option.some.inj hfirst, htail]

end Lookup

namespace ControlOp

variable {F : Type}

/-- The stores of some values, in order. -/
def stores (avs : List (Atom × F)) : List (ControlOp F) := avs.map fun av => .store av.1 av.2

/-- What a list of stores to different controls leaves in a control. -/
theorem applyAll_stores_value {avs : List (Atom × F)} (h : (avs.map Prod.fst).Nodup)
    (c : MidiControl F) (a : Atom) :
    (applyAll (stores avs) c).value a = (avs.lookup a).getD (c.value a) := by
  induction avs generalizing c with
  | nil => rfl
  | cons bv avs ih =>
      obtain ⟨b, v⟩ := bv
      rw [List.map_cons, List.nodup_cons] at h
      have hrest := ih h.2 ((ControlOp.store b v).apply c)
      show (applyAll (stores avs) ((ControlOp.store b v).apply c)).value a = _
      rw [hrest, List.lookup_cons]
      by_cases hab : a = b
      · -- the rest does not store to it again
        have hnone : avs.lookup a = none := lookup_eq_none_of_notMem (hab ▸ h.1)
        rw [hnone, beq_iff_eq.mpr hab, hab]
        simp [ControlOp.apply]
      · have hne : (a == b) = false := beq_eq_false_iff_ne.mpr hab
        rw [hne]
        simp only [ControlOp.apply, Function.update_of_ne hab]

/-- Stores of values change nothing but values. -/
theorem applyAll_stores_flags (avs : List (Atom × F)) (c : MidiControl F) :
    (applyAll (stores avs) c).gate = c.gate
      ∧ (applyAll (stores avs) c).gate_reset = c.gate_reset := by
  induction avs generalizing c with
  | nil => exact ⟨rfl, rfl⟩
  | cons av avs ih => exact ih _

end ControlOp

namespace MidiControl

variable {F : Type} [F32 F]

/-- The value `seed_from_preset(p)` leaves in a control, if it stores to it. -/
def seedOf (p : Preset F) (a : Atom) : Option F := (seed_from_preset p).lookup a

/-- No control is stored twice. -/
theorem seed_nodup (p : Preset F) : ((seed_from_preset p).map Prod.fst).Nodup := by
  rw [seed_from_preset_atoms]
  exact seededAtoms_nodup

/-- An entry of the stores is what is left at the end. -/
theorem seedOf_eq_some_iff {p : Preset F} {a : Atom} {v : F} :
    seedOf p a = some v ↔ (a, v) ∈ seed_from_preset p :=
  lookup_eq_some_iff_mem (seed_nodup p)

/-- The controls of presets are seeded by every preset. -/
theorem exists_seedOf (p : Preset F) {a : Atom} (ha : a ∈ seededAtoms) :
    ∃ v, seedOf p a = some v := by
  rw [← seed_from_preset_atoms p, List.mem_map] at ha
  obtain ⟨⟨b, v⟩, hmem, rfl⟩ := ha
  exact ⟨v, seedOf_eq_some_iff.mpr hmem⟩

/-- Presets with the same value for every control seed the same. -/
theorem seed_ext {p q : Preset F} (h : ∀ a ∈ seededAtoms, seedOf q a = seedOf p a) :
    seed_from_preset q = seed_from_preset p := by
  refine eq_of_lookup ?_ (seed_nodup q) fun a ha => h a ?_
  · rw [seed_from_preset_atoms, seed_from_preset_atoms]
  · rw [← seed_from_preset_atoms q]
    exact ha

/-- The controls hold what `p` seeds, read control by control. -/
theorem agrees_iff {c : MidiControl F} {p : Preset F} :
    c.Agrees p ↔ ∀ a v, seedOf p a = some v → c.value a = v := by
  constructor
  · intro h a v hseed
    exact h (a, v) (seedOf_eq_some_iff.mp hseed)
  · intro h av hav
    exact h av.1 av.2 (seedOf_eq_some_iff.mpr hav)

/-- `seed_from_preset`, run on the controls. -/
def seed (p : Preset F) (c : MidiControl F) : MidiControl F :=
  ControlOp.applyAll (ControlOp.stores (seed_from_preset p)) c

/-- A control that is seeded gets its seed, the others stay. -/
theorem seed_value (p : Preset F) (c : MidiControl F) (a : Atom) :
    (seed p c).value a = (seedOf p a).getD (c.value a) :=
  ControlOp.applyAll_stores_value (seed_nodup p) c a

/-- Seeding makes the controls agree. -/
theorem seed_agrees (p : Preset F) (c : MidiControl F) : (seed p c).Agrees p := by
  rw [agrees_iff]
  intro a v hseed
  rw [seed_value, hseed, Option.getD_some]

/-- Seeding where the controls agree changes nothing. -/
theorem seed_of_agrees {c : MidiControl F} {p : Preset F} (h : c.Agrees p) : seed p c = c := by
  rw [agrees_iff] at h
  have hvalue : (seed p c).value = c.value := by
    funext a
    rw [seed_value]
    cases hseed : seedOf p a with
    | none => rfl
    | some v => exact (h a v hseed).symm
  obtain ⟨hgate, hreset⟩ := ControlOp.applyAll_stores_flags (seed_from_preset p) c
  exact MidiControl.ext hvalue hgate hreset

end MidiControl

/-! ## Controllers and seeds -/

namespace CcMap

open MidiControl

section

variable {F : Type} [F32 F]

/-- `apply_cc` on the working preset and the live controls. -/
def applied (s : Preset F × MidiControl F) (cv : UInt8 × UInt8) : Preset F × MidiControl F :=
  match apply_cc cv.1 cv.2 s.1 with
  | .continuous p a v => (p, (ControlOp.store a v).apply s.2)
  | .structural p => (p, s.2)
  | .unmapped => s

omit [F32 F] in
/-- Looking a control up after one entry has been replaced. -/
theorem lookup_reseeded (a : Atom) (v : F) (seeds : List (Atom × F)) (b : Atom) :
    (reseeded a v seeds).lookup b
      = if b = a then (seeds.lookup b).map fun _ => v else seeds.lookup b := by
  induction seeds with
  | nil => simp [reseeded]
  | cons cw seeds ih =>
      obtain ⟨c, w⟩ := cw
      have hcons : reseeded a v ((c, w) :: seeds)
          = (c, if c = a then v else w) :: reseeded a v seeds := rfl
      rw [hcons, List.lookup_cons, List.lookup_cons, ih]
      by_cases hbc : b = c
      · rw [beq_iff_eq.mpr hbc, hbc]
        by_cases hca : c = a
        · simp [hca]
        · simp [hca]
      · rw [beq_eq_false_iff_ne.mpr hbc]

end

/-- A continuous controller changes one seed, to the value it stores. -/
theorem seedOf_of_continuous {cc value : UInt8} (hvalue : value ≤ 127) {p p' : Preset ℝ} {a : Atom}
    {v : ℝ} (h : apply_cc cc value p = .continuous p' a v) :
    a ∈ seededAtoms ∧ ∀ b, seedOf p' b = if b = a then some v else seedOf p b := by
  have hreflects := apply_cc_reflects cc hvalue p
  rw [h] at hreflects
  obtain ⟨ha, hseeds⟩ := hreflects
  refine ⟨ha, fun b => ?_⟩
  rw [seedOf, hseeds, lookup_reseeded]
  by_cases hba : b = a
  · obtain ⟨w, hw⟩ := exists_seedOf p ha
    rw [seedOf] at hw
    rw [if_pos hba, if_pos hba, hba, hw]
    rfl
  · rw [if_neg hba, if_neg hba]
    rfl

/-- A structural controller changes none. -/
theorem seedOf_of_structural {cc value : UInt8} (hvalue : value ≤ 127) {p p' : Preset ℝ}
    (h : apply_cc cc value p = .structural p') (b : Atom) : seedOf p' b = seedOf p b := by
  have hreflects := apply_cc_reflects cc hvalue p
  rw [h] at hreflects
  rw [seedOf, seedOf, hreflects]

/-- **A controller keeps the live controls in agreement with the preset.** -/
theorem applied_agrees {s : Preset ℝ × MidiControl ℝ} {cv : UInt8 × UInt8} (hvalue : cv.2 ≤ 127)
    (h : s.2.Agrees s.1) : (applied s cv).2.Agrees (applied s cv).1 := by
  unfold applied
  cases hcc : apply_cc cv.1 cv.2 s.1 with
  | unmapped => exact h
  | structural p' =>
      rw [agrees_iff] at h ⊢
      intro b w hw
      rw [seedOf_of_structural hvalue hcc] at hw
      exact h b w hw
  | continuous p' a v =>
      rw [agrees_iff] at h ⊢
      intro b w hw
      rw [(seedOf_of_continuous hvalue hcc).2 b] at hw
      by_cases hba : b = a
      · rw [if_pos hba, Option.some.injEq] at hw
        simp [ControlOp.apply, hba, hw]
      · rw [if_neg hba] at hw
        simp only [ControlOp.apply, Function.update_of_ne hba]
        exact h b w hw

/-- **Seeding again after any controllers changes nothing.** A controller stores in its live
control what the edited field would seed, so a voice that is built from the edited
preset begins where the old one was left. -/
theorem reseed_changes_nothing (p : Preset ℝ) (c : MidiControl ℝ) (cvs : List (UInt8 × UInt8))
    (hvalues : ∀ cv ∈ cvs, cv.2 ≤ 127) :
    seed (cvs.foldl applied (p, seed p c)).1 (cvs.foldl applied (p, seed p c)).2
      = (cvs.foldl applied (p, seed p c)).2 := by
  have hrun : ∀ (cvs : List (UInt8 × UInt8)) (s : Preset ℝ × MidiControl ℝ),
      (∀ cv ∈ cvs, cv.2 ≤ 127) → s.2.Agrees s.1 →
      (cvs.foldl applied s).2.Agrees (cvs.foldl applied s).1 := by
    intro cvs
    induction cvs with
    | nil => exact fun s _ h => h
    | cons cv cvs ih =>
        intro s hvalues h
        have hfirst := applied_agrees (hvalues cv List.mem_cons_self) h
        exact ih _ (fun x hx => hvalues x (List.mem_cons_of_mem cv hx)) hfirst
  exact seed_of_agrees (hrun cvs _ hvalues (seed_agrees p c))

/-- The cutoff, an octave and a waveform. -/
theorem reseed_changes_nothing_knobs :
    let p : Preset ℝ := default_preset.map F32.lit
    let cvs : List (UInt8 × UInt8) := [(CC_CUTOFF, 100), (CC_OSC2_OCTAVE, 3), (CC_OSC1_WAVEFORM, 2)]
    seed (cvs.foldl applied (p, seed p .new)).1 (cvs.foldl applied (p, seed p .new)).2
      = (cvs.foldl applied (p, seed p .new)).2 := by
  intro p cvs
  have hvalues : ∀ cv ∈ cvs, cv.2 ≤ 127 := by
    intro cv hcv
    simp only [cvs, List.mem_cons, List.not_mem_nil, or_false] at hcv
    rcases hcv with rfl | rfl | rfl
    · decide
    · decide
    · decide
  exact reseed_changes_nothing p .new cvs hvalues

end CcMap

end PicoDsp
