/-
The controllers and what they write (`apply_cc` of `control/cc_map.rs`).

`apply_cc` is a match with an arm for each of the mapped controllers. An arm maps the
value of the message to a range, writes it into a field of the working preset, and says
whether the voice has to be rebuilt (`structural`) or a live control follows
(`continuous`). What a player relies on is that these arms do not get into each other's
way: a knob changes one thing, and the order of two knobs does not matter.

To say so for all arms at once, the working preset is read field by field (`PresetField`)
and the live controls one by one (`Cell`). The table `controllers` names for each
controller the field and the live control that it writes; no field and no control
stands in it twice (`controllers_unique`, by evaluation), so the controllers are
operations on cells of their own, and `Lib/Cells.lean` has what follows for such
operations: they commute, the last of two writes counts, and a sequence of edits is
known by the last value of each controller.

The table is no second copy of the code that could drift from it: `apply_cc_fits` proves
the arms of `apply_cc` to be its entries, one arm and one entry at a time, and every
value is left as the code computes it, over any reading of `f32`.

Reading a field gives a value whose type depends on the field, a number or a waveform.
The records are known by their fields (`Preset.ext_get`), which is what makes
"all other fields are kept" a statement about the whole record.
-/
import PicoDsp.Control.CcSpec
import PicoDsp.Lib.Cells

set_option autoImplicit false

namespace PicoDsp

open Lib

/-! ## The fields of a preset -/

inductive OscField
  | waveform | level | octave | detune | enable_vibrato
  deriving DecidableEq

inductive FilterField
  | cutoff | resonance | env_amount | attack | decay | sustain | release
  deriving DecidableEq

inductive EnvelopeField
  | attack | decay | sustain | release
  deriving DecidableEq

inductive LfoField
  | frequency | waveform | vibrato_amount | filter_amount
  deriving DecidableEq

inductive DelayField
  | time | feedback | mix | enabled
  deriving DecidableEq

inductive ReverbField
  | size | damping | mix | enabled
  deriving DecidableEq

inductive PresetField
  | name
  | osc1 (f : OscField)
  | osc2 (f : OscField)
  | osc3 (f : OscField)
  | noise_level
  | portamento
  | filter (f : FilterField)
  | amp (f : EnvelopeField)
  | lfo_enabled
  | lfo (f : LfoField)
  | delay (f : DelayField)
  | reverb (f : ReverbField)
  | padding
  deriving DecidableEq

section

variable {F : Type}

abbrev OscField.Value (F : Type) : OscField → Type
  | .waveform | .enable_vibrato => UInt32
  | .level | .octave | .detune => F

def OscSettings.get (o : OscSettings F) : (f : OscField) → f.Value F
  | .waveform => o.waveform
  | .level => o.level
  | .octave => o.octave
  | .detune => o.detune
  | .enable_vibrato => o.enable_vibrato

def FilterSettings.get (o : FilterSettings F) : FilterField → F
  | .cutoff => o.cutoff
  | .resonance => o.resonance
  | .env_amount => o.env_amount
  | .attack => o.attack
  | .decay => o.decay
  | .sustain => o.sustain
  | .release => o.release

def EnvelopeSettings.get (o : EnvelopeSettings F) : EnvelopeField → F
  | .attack => o.attack
  | .decay => o.decay
  | .sustain => o.sustain
  | .release => o.release

abbrev LfoField.Value (F : Type) : LfoField → Type
  | .waveform => UInt32
  | .frequency | .vibrato_amount | .filter_amount => F

def LfoSettings.get (o : LfoSettings F) : (f : LfoField) → f.Value F
  | .frequency => o.frequency
  | .waveform => o.waveform
  | .vibrato_amount => o.vibrato_amount
  | .filter_amount => o.filter_amount

abbrev DelayField.Value (F : Type) : DelayField → Type
  | .enabled => UInt32
  | .time | .feedback | .mix => F

def DelaySettings.get (o : DelaySettings F) : (f : DelayField) → f.Value F
  | .time => o.time
  | .feedback => o.feedback
  | .mix => o.mix
  | .enabled => o.enabled

abbrev ReverbField.Value (F : Type) : ReverbField → Type
  | .enabled => UInt32
  | .size | .damping | .mix => F

def ReverbSettings.get (o : ReverbSettings F) : (f : ReverbField) → f.Value F
  | .size => o.size
  | .damping => o.damping
  | .mix => o.mix
  | .enabled => o.enabled

abbrev PresetField.Value (F : Type) : PresetField → Type
  | .name => Vector UInt8 32
  | .osc1 f | .osc2 f | .osc3 f => f.Value F
  | .noise_level | .portamento | .filter _ | .amp _ => F
  | .lfo_enabled => UInt32
  | .lfo f => f.Value F
  | .delay f => f.Value F
  | .reverb f => f.Value F
  | .padding => Vector UInt8 4

def Preset.get (p : Preset F) : (f : PresetField) → f.Value F
  | .name => p.name
  | .osc1 f => p.osc1.get f
  | .osc2 f => p.osc2.get f
  | .osc3 f => p.osc3.get f
  | .noise_level => p.noise_level
  | .portamento => p.portamento
  | .filter f => p.filter.get f
  | .amp f => p.amp.get f
  | .lfo_enabled => p.lfo_enabled
  | .lfo f => p.lfo.get f
  | .delay f => p.delay.get f
  | .reverb f => p.reverb.get f
  | .padding => p.padding

/-! A record is known by its fields. -/

/-- An oscillator's settings. -/
theorem OscSettings.ext_get {o o' : OscSettings F} (h : ∀ f, o.get f = o'.get f) : o = o' := by
  obtain ⟨_, _, _, _, _⟩ := o
  obtain ⟨_, _, _, _, _⟩ := o'
  rw [OscSettings.mk.injEq]
  exact ⟨h .waveform, h .level, h .octave, h .detune, h .enable_vibrato⟩

/-- The filter's settings. -/
theorem FilterSettings.ext_get {o o' : FilterSettings F} (h : ∀ f, o.get f = o'.get f) :
    o = o' := by
  obtain ⟨_, _, _, _, _, _, _⟩ := o
  obtain ⟨_, _, _, _, _, _, _⟩ := o'
  rw [FilterSettings.mk.injEq]
  exact ⟨h .cutoff, h .resonance, h .env_amount, h .attack, h .decay, h .sustain, h .release⟩

/-- An envelope's settings. -/
theorem EnvelopeSettings.ext_get {o o' : EnvelopeSettings F} (h : ∀ f, o.get f = o'.get f) :
    o = o' := by
  obtain ⟨_, _, _, _⟩ := o
  obtain ⟨_, _, _, _⟩ := o'
  rw [EnvelopeSettings.mk.injEq]
  exact ⟨h .attack, h .decay, h .sustain, h .release⟩

/-- The LFO's settings. -/
theorem LfoSettings.ext_get {o o' : LfoSettings F} (h : ∀ f, o.get f = o'.get f) : o = o' := by
  obtain ⟨_, _, _, _⟩ := o
  obtain ⟨_, _, _, _⟩ := o'
  rw [LfoSettings.mk.injEq]
  exact ⟨h .frequency, h .waveform, h .vibrato_amount, h .filter_amount⟩

/-- The delay's settings. -/
theorem DelaySettings.ext_get {o o' : DelaySettings F} (h : ∀ f, o.get f = o'.get f) : o = o' := by
  obtain ⟨_, _, _, _⟩ := o
  obtain ⟨_, _, _, _⟩ := o'
  rw [DelaySettings.mk.injEq]
  exact ⟨h .time, h .feedback, h .mix, h .enabled⟩

/-- The reverb's settings. -/
theorem ReverbSettings.ext_get {o o' : ReverbSettings F} (h : ∀ f, o.get f = o'.get f) :
    o = o' := by
  obtain ⟨_, _, _, _⟩ := o
  obtain ⟨_, _, _, _⟩ := o'
  rw [ReverbSettings.mk.injEq]
  exact ⟨h .size, h .damping, h .mix, h .enabled⟩

/-- A preset, with the records in it. -/
theorem Preset.ext_get {p q : Preset F} (h : ∀ f, p.get f = q.get f) : p = q := by
  obtain ⟨_, _, _, _, _, _, _, _, _, _, _, _, _⟩ := p
  obtain ⟨_, _, _, _, _, _, _, _, _, _, _, _, _⟩ := q
  rw [Preset.mk.injEq]
  exact ⟨h .name, OscSettings.ext_get fun f => h (.osc1 f), OscSettings.ext_get fun f => h (.osc2 f),
    OscSettings.ext_get fun f => h (.osc3 f), h .noise_level, h .portamento,
    FilterSettings.ext_get fun f => h (.filter f), EnvelopeSettings.ext_get fun f => h (.amp f),
    h .lfo_enabled, LfoSettings.ext_get fun f => h (.lfo f),
    DelaySettings.ext_get fun f => h (.delay f), ReverbSettings.ext_get fun f => h (.reverb f),
    h .padding⟩

end

namespace CcMap

/-! ## The table -/

/-- A controller number, the field it writes, and its live control if it has one. -/
structure Controller where
  cc : UInt8
  field : PresetField
  live : Option Atom
  deriving DecidableEq

/-- The mapped controllers, in the order of `apply_cc`. -/
def controllers : List Controller :=
  [⟨CC_PORTAMENTO, .portamento, some .portamento_amount⟩,
    ⟨CC_RESONANCE, .filter .resonance, some .parameter_2⟩,
    ⟨CC_CUTOFF, .filter .cutoff, some .parameter_1⟩,
    ⟨CC_OSC1_LEVEL, .osc1 .level, some (.cont slot.OSC1_LEVEL)⟩,
    ⟨CC_OSC2_LEVEL, .osc2 .level, some (.cont slot.OSC2_LEVEL)⟩,
    ⟨CC_OSC3_LEVEL, .osc3 .level, some (.cont slot.OSC3_LEVEL)⟩,
    ⟨CC_OSC1_OCTAVE, .osc1 .octave, some (.cont slot.OSC1_OCTAVE)⟩,
    ⟨CC_OSC2_OCTAVE, .osc2 .octave, some (.cont slot.OSC2_OCTAVE)⟩,
    ⟨CC_OSC3_OCTAVE, .osc3 .octave, some (.cont slot.OSC3_OCTAVE)⟩,
    ⟨CC_OSC1_DETUNE, .osc1 .detune, some (.cont slot.OSC1_DETUNE)⟩,
    ⟨CC_OSC2_DETUNE, .osc2 .detune, some (.cont slot.OSC2_DETUNE)⟩,
    ⟨CC_OSC3_DETUNE, .osc3 .detune, some (.cont slot.OSC3_DETUNE)⟩,
    ⟨CC_NOISE, .noise_level, some (.cont slot.NOISE)⟩,
    ⟨CC_FILT_ENV_AMT, .filter .env_amount, some (.cont slot.FILT_ENV_AMT)⟩,
    ⟨CC_FILT_ATTACK, .filter .attack, some (.cont slot.FILT_ATTACK)⟩,
    ⟨CC_FILT_DECAY, .filter .decay, some (.cont slot.FILT_DECAY)⟩,
    ⟨CC_FILT_SUSTAIN, .filter .sustain, some (.cont slot.FILT_SUSTAIN)⟩,
    ⟨CC_FILT_RELEASE, .filter .release, some (.cont slot.FILT_RELEASE)⟩,
    ⟨CC_AMP_ATTACK, .amp .attack, some (.cont slot.AMP_ATTACK)⟩,
    ⟨CC_AMP_DECAY, .amp .decay, some (.cont slot.AMP_DECAY)⟩,
    ⟨CC_AMP_SUSTAIN, .amp .sustain, some (.cont slot.AMP_SUSTAIN)⟩,
    ⟨CC_AMP_RELEASE, .amp .release, some (.cont slot.AMP_RELEASE)⟩,
    ⟨CC_DELAY_TIME, .delay .time, some (.cont slot.DELAY_TIME)⟩,
    ⟨CC_DELAY_FEEDBACK, .delay .feedback, some (.cont slot.DELAY_FEEDBACK)⟩,
    ⟨CC_DELAY_MIX, .delay .mix, some (.cont slot.DELAY_MIX)⟩,
    ⟨CC_REVERB_SIZE, .reverb .size, some (.cont slot.REVERB_SIZE)⟩,
    ⟨CC_REVERB_DAMPING, .reverb .damping, some (.cont slot.REVERB_DAMPING)⟩,
    ⟨CC_REVERB_MIX, .reverb .mix, some (.cont slot.REVERB_MIX)⟩,
    ⟨CC_LFO_FREQ, .lfo .frequency, some (.cont slot.LFO_FREQ)⟩,
    ⟨CC_LFO_VIB_AMT, .lfo .vibrato_amount, some (.cont slot.LFO_VIB_AMT)⟩,
    ⟨CC_LFO_FILT_AMT, .lfo .filter_amount, some (.cont slot.LFO_FILT_AMT)⟩,
    ⟨CC_OSC1_WAVEFORM, .osc1 .waveform, none⟩,
    ⟨CC_OSC2_WAVEFORM, .osc2 .waveform, none⟩,
    ⟨CC_OSC3_WAVEFORM, .osc3 .waveform, none⟩,
    ⟨CC_OSC1_VIBRATO, .osc1 .enable_vibrato, none⟩,
    ⟨CC_OSC2_VIBRATO, .osc2 .enable_vibrato, none⟩,
    ⟨CC_OSC3_VIBRATO, .osc3 .enable_vibrato, none⟩,
    ⟨CC_DELAY_ENABLED, .delay .enabled, none⟩,
    ⟨CC_REVERB_ENABLED, .reverb .enabled, none⟩,
    ⟨CC_LFO_ENABLED, .lfo_enabled, none⟩,
    ⟨CC_LFO_WAVEFORM, .lfo .waveform, none⟩]

/-- No controller number, field or live control is in the table twice. -/
theorem controllers_unique : ∀ e ∈ controllers, ∀ e' ∈ controllers,
    e.cc = e'.cc ∨ e.field = e'.field ∨ (e.live ≠ none ∧ e.live = e'.live) → e = e' := by
  decide +kernel

section

variable {F : Type}

/-- The field is set to a value that does not depend on the preset, the others are kept. -/
def SetsField (f : PresetField) (p p' q' : Preset F) : Prop :=
  p'.get f = q'.get f ∧ ∀ g, g ≠ f → p'.get g = p.get g

/-- What `apply_cc` makes of two presets is what the entry of the table says. -/
def Controller.Fits (e : Controller) (p : Preset F) : CcResult F → CcResult F → Prop
  | .continuous p' a v, .continuous q' b w =>
      e.live = some a ∧ b = a ∧ w = v ∧ SetsField e.field p p' q'
  | .structural p', .structural q' => e.live = none ∧ SetsField e.field p p' q'
  | _, _ => False

/-- The entry for `cc` fits, and without one nothing is written. -/
def FitsTable (cc : UInt8) (p : Preset F) (es : List Controller) (r r' : CcResult F) : Prop :=
  match es.find? fun e => cc = e.cc with
  | some e => e.Fits p r r'
  | none => r = .unmapped ∧ r' = .unmapped

/-- One arm of the match and one entry of the table. -/
theorem FitsTable.cons {cc : UInt8} {p : Preset F} {e : Controller} {es : List Controller}
    {x x' y y' : CcResult F} (hx : e.Fits p x x') (hy : FitsTable cc p es y y') :
    FitsTable cc p (e :: es) (if cc = e.cc then x else y) (if cc = e.cc then x' else y') := by
  unfold FitsTable
  by_cases h : cc = e.cc
  · have hfind : (e :: es).find? (fun e => decide (cc = e.cc)) = some e :=
      List.find?_cons_of_pos (decide_eq_true h)
    rw [if_pos h, if_pos h, hfind]
    exact hx
  · have hfind : (e :: es).find? (fun e => decide (cc = e.cc))
        = es.find? fun e => decide (cc = e.cc) :=
      List.find?_cons_of_neg (by rwa [decide_eq_true_eq])
    rw [if_neg h, if_neg h, hfind]
    exact hy

variable [F32 F]

/-- The arms of `apply_cc` are the entries of the table. -/
theorem apply_cc_fits (cc value : UInt8) (p q : Preset F) :
    FitsTable cc p controllers (apply_cc cc value p) (apply_cc cc value q) := by
  unfold apply_cc controllers
  repeat' apply FitsTable.cons
  case hy => exact ⟨rfl, rfl⟩
  all_goals
    first
    | refine ⟨rfl, rfl, rfl, rfl, ?_⟩
    | refine ⟨rfl, rfl, ?_⟩
    intro g hg
    cases g with
    | osc1 f | osc2 f | osc3 f | filter f | amp f | lfo f | delay f | reverb f =>
        first
        | rfl
        | cases f <;> first | rfl | exact absurd rfl hg
    | name | noise_level | portamento | lfo_enabled | padding =>
        first
        | rfl
        | exact absurd rfl hg

/-! ## The cells -/

/-- The working preset and the live controls after a controller message. -/
def edit (cc value : UInt8) (s : Preset F × MidiControl F) : Preset F × MidiControl F :=
  match apply_cc cc value s.1 with
  | .continuous p a v => (p, (ControlOp.store a v).apply s.2)
  | .structural p => (p, s.2)
  | .unmapped => s

/-- What a controller edits: the fields of the preset and the live controls. -/
inductive Cell
  | preset (f : PresetField)
  | live (a : Atom)
  | gate
  | gate_reset

abbrev Cell.Value (F : Type) : Cell → Type
  | .preset f => f.Value F
  | .live _ => F
  | .gate | .gate_reset => Bool

def Cell.get {F : Type} : (i : Cell) → Preset F × MidiControl F → i.Value F
  | .preset f, s => s.1.get f
  | .live a, s => s.2.value a
  | .gate, s => s.2.gate
  | .gate_reset, s => s.2.gate_reset

def Controller.Writes (e : Controller) : Cell → Prop
  | .preset f => e.field = f
  | .live a => e.live = some a
  | .gate | .gate_reset => False

/-- Controller `cc` writes the cell. -/
def Owns (cc : UInt8) (i : Cell) : Prop := ∃ e ∈ controllers, e.cc = cc ∧ e.Writes i

/-- A controller is unmapped exactly if it is not in the table, and that does not depend on
its value or on the preset. -/
theorem unmapped_iff (cc value : UInt8) (p : Preset F) :
    apply_cc cc value p = .unmapped ↔ ∀ e ∈ controllers, e.cc ≠ cc := by
  have hfits := apply_cc_fits cc value p p
  unfold FitsTable at hfits
  cases hfind : controllers.find? fun e => decide (cc = e.cc) with
  | none =>
      rw [hfind] at hfits
      refine iff_of_true hfits.1 ?_
      intro e he hcc
      have hnot := List.find?_eq_none.mp hfind e he
      exact hnot (decide_eq_true hcc.symm)
  | some e =>
      rw [hfind] at hfits
      have hcc : decide (cc = e.cc) = true :=
        List.find?_some (p := fun e : Controller => decide (cc = e.cc)) hfind
      refine iff_of_false ?_ fun h =>
        h e (List.mem_of_find?_eq_some hfind) (of_decide_eq_true hcc).symm
      intro hrun
      rw [hrun] at hfits
      exact hfits

/-- An entry of the table fits its controller. -/
theorem fits_of_mem {e : Controller} (he : e ∈ controllers) (value : UInt8) (p q : Preset F) :
    e.Fits p (apply_cc e.cc value p) (apply_cc e.cc value q) := by
  have hfits := apply_cc_fits e.cc value p q
  unfold FitsTable at hfits
  cases hfind : controllers.find? fun e' => decide (e.cc = e'.cc) with
  | none =>
      have hnot := List.find?_eq_none.mp hfind e he
      exact absurd (decide_eq_true rfl) hnot
  | some e' =>
      have hcc : decide (e.cc = e'.cc) = true :=
        List.find?_some (p := fun e' : Controller => decide (e.cc = e'.cc)) hfind
      have heq : e = e' := controllers_unique e he e' (List.mem_of_find?_eq_some hfind)
        (Or.inl (of_decide_eq_true hcc))
      rw [hfind, ← heq] at hfits
      exact hfits

/-- An edit sets the cells of its controller to values of the message, and keeps the
others. -/
theorem edit_cells {e : Controller} (he : e ∈ controllers) (value : UInt8)
    (s t : Preset F × MidiControl F) (i : Cell) :
    (e.Writes i → i.get (edit e.cc value s) = i.get (edit e.cc value t))
      ∧ (¬ e.Writes i → i.get (edit e.cc value s) = i.get s) := by
  have hfits := fits_of_mem he value s.1 t.1
  unfold edit
  rcases hp : apply_cc e.cc value s.1 with ⟨p', a, v⟩ | ⟨p'⟩ | _ <;>
    rcases hq : apply_cc e.cc value t.1 with ⟨q', b, w⟩ | ⟨q'⟩ | _ <;>
    rw [hp, hq] at hfits
  case continuous.continuous =>
    obtain ⟨hlive, rfl, rfl, hset, hkeep⟩ := hfits
    cases i with
    | preset f => exact ⟨fun hf => hf ▸ hset, fun hf => hkeep f fun h => hf h.symm⟩
    | live c =>
        -- the store is to the control of the table, and to no other
        constructor
        · intro hc
          obtain rfl : b = c := Option.some.inj (hlive.symm.trans hc)
          have hset : ∀ u : MidiControl F, ((ControlOp.store b w).apply u).value b = w := by
            intro u
            simp only [ControlOp.apply, Function.update_self]
          exact (hset s.2).trans (hset t.2).symm
        · intro hc
          have hne : c ≠ b := fun h => hc (hlive.trans (congrArg some h.symm))
          exact Function.update_of_ne hne w s.2.value
    | gate => exact ⟨False.elim, fun _ => rfl⟩
    | gate_reset => exact ⟨False.elim, fun _ => rfl⟩
  case structural.structural =>
    obtain ⟨hlive, hset, hkeep⟩ := hfits
    cases i with
    | preset f => exact ⟨fun hf => hf ▸ hset, fun hf => hkeep f fun h => hf h.symm⟩
    | live c =>
        -- a structural edit waits for the rebuild
        refine ⟨fun hc => ?_, fun _ => rfl⟩
        rw [Controller.Writes, hlive] at hc
        cases hc
    | gate => exact ⟨False.elim, fun _ => rfl⟩
    | gate_reset => exact ⟨False.elim, fun _ => rfl⟩
  all_goals exact hfits.elim

/-- A cell belongs to one controller. -/
theorem Owns.unique {c₁ c₂ : UInt8} {i : Cell} (h₁ : Owns c₁ i) (h₂ : Owns c₂ i) : c₁ = c₂ := by
  obtain ⟨e₁, he₁, rfl, hw₁⟩ := h₁
  obtain ⟨e₂, he₂, rfl, hw₂⟩ := h₂
  suffices heq : e₁ = e₂ by rw [heq]
  cases i with
  | preset f => exact controllers_unique e₁ he₁ e₂ he₂ (Or.inr (Or.inl (hw₁.trans hw₂.symm)))
  | live a =>
      have hsome : e₁.live ≠ none := by
        rw [show e₁.live = some a from hw₁]
        exact Option.some_ne_none a
      exact controllers_unique e₁ he₁ e₂ he₂ (Or.inr (Or.inr ⟨hsome, hw₁.trans hw₂.symm⟩))
  | gate => exact hw₁.elim
  | gate_reset => exact hw₁.elim

/-- The controllers are operations on cells of their own. -/
theorem edit_separate : Separate (Cell.get (F := F)) edit Owns where
  ext s t h := by
    refine Prod.ext (Preset.ext_get fun f => h (.preset f)) ?_
    exact MidiControl.ext (funext fun a => h (.live a)) (h .gate) (h .gate_reset)
  unique _ _ _ := Owns.unique
  sets cc i := by
    rintro ⟨e, he, rfl, hw⟩ value s t
    exact (edit_cells he value s t i).1 hw
  keeps cc i hnot value s := by
    by_cases hmapped : ∀ e ∈ controllers, e.cc ≠ cc
    · rw [edit, (unmapped_iff cc value s.1).mpr hmapped]
    · push Not at hmapped
      obtain ⟨e, he, rfl⟩ := hmapped
      exact (edit_cells he value s s i).2 fun hw => hnot ⟨e, he, rfl, hw⟩

/-- **Controller edits are independent.** Two controllers commute, and of two messages
of one controller the last one counts. A mapped controller sets the one field and the
one live control, if any, of its entry in the table and keeps everything else; no two
controllers share a field or a live control. So a sequence of edits is known by the
last value of each controller. -/
theorem edits_independent :
    (∀ (c₁ c₂ v₁ v₂ : UInt8) (s : Preset F × MidiControl F), c₁ ≠ c₂ →
        edit c₂ v₂ (edit c₁ v₁ s) = edit c₁ v₁ (edit c₂ v₂ s))
    ∧ (∀ (cc v w : UInt8) (s : Preset F × MidiControl F),
        edit cc w (edit cc v s) = edit cc w s)
    ∧ (∀ (cc value : UInt8) (p : Preset F),
        apply_cc cc value p = .unmapped ↔ ∀ e ∈ controllers, e.cc ≠ cc)
    ∧ (∀ e ∈ controllers, ∀ (value : UInt8) (s t : Preset F × MidiControl F) (i : Cell),
        (e.Writes i → i.get (edit e.cc value s) = i.get (edit e.cc value t))
          ∧ (¬ e.Writes i → i.get (edit e.cc value s) = i.get s))
    ∧ (∀ e ∈ controllers, ∀ e' ∈ controllers,
        e.cc = e'.cc ∨ e.field = e'.field ∨ (e.live ≠ none ∧ e.live = e'.live) → e = e')
    ∧ ∀ es es' : List (UInt8 × UInt8), (∀ cc, lastArg es cc = lastArg es' cc) →
        ∀ s : Preset F × MidiControl F, perform edit es s = perform edit es' s :=
  ⟨fun _ _ v₁ v₂ s h => edit_separate.comm h v₁ v₂ s,
    edit_separate.overwrite,
    unmapped_iff,
    fun _ he value s t i => edit_cells he value s t i,
    controllers_unique,
    fun _ _ hlast s => edit_separate.perform_eq_of_lastArg hlast s⟩

end

end CcMap

end PicoDsp
