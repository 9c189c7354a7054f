/-
The patch core1 starts with and the patch `midi_task` believes it plays (`main.rs`,
and the start of `midi_task` in `control/midi.rs`).

`main` picks the boot preset before core1 exists and hands it over;
`midi_task` picks it again, after the deferred format, for its RAM mirror. All later
edits are made on the mirror and reach core1 as differences or as whole presets, so a
mirror that starts wrong makes the first structural edit replace the patch that plays.

The two agree on every bank that holds the boot preset and on every bank that is
formatted. On a valid bank too short for it their defaults differ: `main` falls
back on factory preset 4, `midi_task` on `Preset::default()`, although its comment says
that core1 boots on preset 4.

The flash between the two reads is the point of `boot_mirror_iff`: where a format is due,
`main` sees the old contents and `midi_task` the new ones, and both nevertheless come to
factory preset 4, one as a fallback and the other as record 4 of the fresh bank
(`recordAt_format`). The agreement is of whole records, bit for bit, so the statement
does not depend on which fields core1 looks at. The equivalence needs that the two
fallbacks differ, which is a fact about the two records of the source
(`fallbacks_differ`).
-/
import PicoDsp.Control.BankSafety
import PicoDsp.Data.StorageRefines

set_option autoImplicit false

namespace PicoDsp.MidiTask

open Lib Storage

variable {F : Type} [F32 F]

/-- `get_default_presets()[4]`; the bank has 128 presets, so the index is in range. -/
def defaultBootPreset : Preset UInt32 := Factory.get_default_presets.getD 4 Preset.default

/-- `main` up to the spawn of core1: whether a reformat is due, and the preset
core1 starts with. -/
def main_start : Proc Flash FlashOp (Bool × Preset UInt32) := do
  let needs_format ← needs_format
  if needs_format then pure (true, defaultBootPreset)
  else do
    let preset ← load_preset 4
    pure (false, preset.getD defaultBootPreset)

/-- Power-up: the preset that core1 was given, and the task as it enters its loop. -/
def power_up : Proc Flash FlashOp (Preset UInt32 × MidiTask F) := do
  let (needs_format, preset) ← main_start
  let task ← start needs_format
  pure (preset, task)

/-- The preset core1 is given. -/
def bootPatch (f : Flash) : Preset UInt32 :=
  if (header f).Valid ∧ 4 < presetCount f then recordAt f 4 else defaultBootPreset

/-- `main` up to the spawn never fails: it reads the header, and record 4 if there is one. -/
theorem main_start_run (f : Flash) :
    ∃ es, main_start f = (es, some ((!decide (header f).Valid, bootPatch f), f)) := by
  unfold bootPatch
  by_cases hvalid : (header f).Valid
  · rw [main_start, Proc.bind_some (needs_format_run f), decide_eq_true hvalid, Bool.not_true]
    by_cases hlt : 4 < presetCount f
    · rw [if_neg Bool.false_ne_true, if_pos ⟨hvalid, hlt⟩,
        Proc.bind_some (load_preset_found hlt (by decide))]
      exact ⟨_, rfl⟩
    · have hshort : ¬ ((header f).Valid ∧ 4 < presetCount f) := fun h => hlt h.2
      rw [if_neg Bool.false_ne_true, if_neg hshort,
        Proc.bind_some (load_preset_missing (Nat.not_lt.mp hlt))]
      exact ⟨_, rfl⟩
  · have hshort : ¬ ((header f).Valid ∧ 4 < presetCount f) := fun h => hvalid h.1
    rw [main_start, Proc.bind_some (needs_format_run f), decide_eq_false hvalid, Bool.not_false,
      if_pos rfl, if_neg hshort]
    exact ⟨_, rfl⟩

/-- Power-up always ends. -/
theorem power_up_run (f : Flash) :
    ∃ es, power_up (F := F) f
      = (es, some ((bootPatch f, entered F (bootFlash f)), bootFlash f)) := by
  obtain ⟨es, hmain⟩ := main_start_run f
  obtain ⟨es', hstart⟩ := start_run (F := F) f
  rw [power_up, Proc.bind_some hmain]
  dsimp only
  rw [Proc.bind_some hstart]
  exact ⟨_, rfl⟩

/-- On a bank with more than four presets the mirror is record 4. -/
theorem entered_mirror {g : Flash} (h : 4 < presetCount g) :
    (entered F g).working_preset = loaded F g 4 := if_pos h

/-- A formatted bank holds the factory presets. -/
theorem recordAt_format (f : Flash) : recordAt (written f format_image) 4 = defaultBootPreset := by
  obtain ⟨tail, himage⟩ := format_image_eq
  have hstarts : (region (written f format_image)).StartsWith
      ((⟨MAGIC, VERSION, 128, 0⟩ : StorageHeader).to_bytes
        ++ (Factory.get_default_presets.map Preset.to_bytes).flatten) := by
    rw [region_written format_image_fits, himage]
    exact (region f).write_startsWith _ tail
  have hlen : (Factory.get_default_presets.map Preset.to_bytes).length = 128 := by
    rw [List.length_map, Factory.get_default_presets_length]
  have hrecords : ∀ r ∈ Factory.get_default_presets.map Preset.to_bytes,
      r.length = PRESET_SIZE := by
    intro r hr
    obtain ⟨p, -, rfl⟩ := List.mem_map.mp hr
    exact p.to_bytes_length
  have hfour : 4 < Factory.get_default_presets.length := by
    rw [Factory.get_default_presets_length]
    decide
  rw [recordAt_of_startsWith hstarts (by rw [hlen]; exact Nat.le_refl _) hrecords
    (by rw [hlen]; decide), List.getElem_map, Preset.from_bytes_to_bytes, defaultBootPreset,
    List.getD_eq_getElem _ _ hfour]

/-- The two fallbacks are different patches. -/
theorem fallbacks_differ : defaultBootPreset.name ≠ Preset.default.name := by decide +kernel

/-- The mirror of a valid bank that is too short is not the patch of core1. -/
theorem mirror_of_short {f : Flash} (hvalid : (header f).Valid) (hshort : presetCount f ≤ 4) :
    (entered F (bootFlash f)).working_preset ≠ (bootPatch f).map F32.from_bits := by
  have hflash : bootFlash f = f := if_pos hvalid
  have hpatch : bootPatch f = defaultBootPreset := if_neg fun h => by omega
  have hmirror : (entered F f).working_preset = Preset.default.map F32.from_bits :=
    if_neg (Nat.not_lt.mpr hshort)
  rw [hflash, hpatch, hmirror]
  intro heq
  exact fallbacks_differ (congrArg Preset.name heq).symm

/-- **At boot the mirror is the patch of core1 exactly if the bank is formatted or
holds the boot preset.** Both tasks ask for preset 4. Where the bank has none, core1
falls back on that preset of the factory bank and `midi_task` on `Preset::default`, which
is another patch. -/
theorem boot_mirror_iff (f : Flash) :
    (∃ es preset task g, power_up (F := F) f = (es, some ((preset, task), g))
        ∧ task.working_preset = preset.map F32.from_bits)
      ↔ (header f).Valid → 4 < presetCount f := by
  obtain ⟨es, hrun⟩ := power_up_run (F := F) f
  constructor
  · rintro ⟨es', preset, task, g, hrun', hmirror⟩ hvalid
    rw [hrun, Prod.mk.injEq, Option.some.injEq, Prod.mk.injEq, Prod.mk.injEq] at hrun'
    obtain ⟨-, ⟨rfl, rfl⟩, -⟩ := hrun'
    by_contra hshort
    exact mirror_of_short hvalid (Nat.not_lt.mp hshort) hmirror
  · intro hlong
    refine ⟨es, _, _, _, hrun, ?_⟩
    by_cases hvalid : (header f).Valid
    · -- both read record 4
      have hflash : bootFlash f = f := if_pos hvalid
      have hpatch : bootPatch f = recordAt f 4 := if_pos ⟨hvalid, hlong hvalid⟩
      rw [hflash, hpatch, entered_mirror (hlong hvalid), loaded]
    · -- core1 plays the factory preset that the format writes
      have hflash : bootFlash f = written f format_image := if_neg hvalid
      have hpatch : bootPatch f = defaultBootPreset := if_neg fun h => hvalid h.1
      have hcount : 4 < presetCount (written f format_image) := by
        rw [presetCount, header_format]
        decide
      rw [hflash, hpatch, entered_mirror hcount, loaded, recordAt_format]

/-- On four presets the two fallbacks are used. -/
theorem boot_mirror_short :
    ¬ ∃ es preset task g, power_up (F := ℝ) (blankFlash 4) = (es, some ((preset, task), g))
        ∧ task.working_preset = preset.map F32.from_bits := by
  obtain ⟨es, hrun⟩ := power_up_run (F := ℝ) (blankFlash 4)
  have hcount : presetCount (blankFlash 4) = 4 := by
    rw [presetCount, header_blankFlash]
    rfl
  have hvalid : (header (blankFlash 4)).Valid := by
    rw [header_blankFlash]
    exact ⟨rfl, rfl⟩
  rintro ⟨es', preset, task, g, hrun', hmirror⟩
  rw [hrun, Prod.mk.injEq, Option.some.injEq, Prod.mk.injEq, Prod.mk.injEq] at hrun'
  obtain ⟨-, ⟨rfl, rfl⟩, -⟩ := hrun'
  exact mirror_of_short hvalid (Nat.le_of_eq hcount) hmirror

end PicoDsp.MidiTask
