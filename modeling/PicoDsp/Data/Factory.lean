/-
The factory bank (`get_default_presets` in `data/presets.rs`): 128 patches in eleven
groups, in the order and with the decimals of the source.

The patches become bit patterns only in `get_default_presets`, where every constant is
rounded the way the compiler rounds it. So a line here can be compared with its line in
the source digit by digit, and what the device holds is still the exact 32 bits: the
image of `format`, a dump of a fresh device and the preset that core1 starts with are
all computed from it.
-/
import PicoDsp.Data.Presets

set_option autoImplicit false

namespace PicoDsp.Factory

open Lib

def no_lfo : LfoSettings ℚ := lfo 1.0 .Sine 0.0 0.0

def no_osc : OscSettings ℚ := osc .Saw 0.0 0.0 0.0 false

/-- The constructor every line of the bank goes through. -/
def p (name : String) (osc1 osc2 osc3 : OscSettings ℚ) (noise_level portamento : ℚ)
    (filter : FilterSettings ℚ) (amp : EnvelopeSettings ℚ) (lfo_enabled : Bool)
    (lfo : LfoSettings ℚ) (delay : DelaySettings ℚ) (reverb : ReverbSettings ℚ) : Preset ℚ where
  name := make_name name
  osc1 := osc1
  osc2 := osc2
  osc3 := osc3
  noise_level := noise_level
  portamento := portamento
  filter := filter
  amp := amp
  lfo_enabled := if lfo_enabled then 1 else 0
  lfo := lfo
  delay := delay
  reverb := reverb
  padding := Vector.replicate 4 0

/-- Bass, 18 presets. -/
def bass_presets : List (Preset ℚ) := [
  p "Moog Bass" (osc .Saw 1.0 (-3.0) 0.0 false) (osc .Saw 0.4 (-3.0) 0.3 false)
    (osc .Square 0.5 (-4.0) 0.0 false)
    0.0 0.0 (filt 80.0 0.286 3000.0 0.001 0.25 0.0 0.1) (env 0.001 0.2 0.8 0.1)
    false no_lfo (delay_set 0.25 0.3 0.3 false) (reverb_set 0.5 0.5 0.1 false),
  p "Deep Sub" (osc .Sine 1.0 (-2.0) 0.0 false) (osc .Sine 0.3 (-1.0) 0.0 false) no_osc
    0.0 0.0 (filt 800.0 0.062 0.0 0.001 0.1 1.0 0.1) (env 0.002 0.15 0.9 0.12)
    false no_lfo (delay_set 0.25 0.3 0.3 false) (reverb_set 0.5 0.5 0.1 false),
  p "Reese Bass" (osc .Saw 1.0 (-2.0) 1.5 false) (osc .Saw 1.0 (-2.0) (-1.5) false)
    (osc .Saw 0.6 (-1.0) 0.4 false)
    0.0 0.0 (filt 400.0 0.5 1500.0 0.005 0.4 0.7 0.2) (env 0.005 0.3 0.9 0.2)
    true (lfo 0.4 .Triangle 0.0 300.0) (delay_set 0.25 0.3 0.2 false)
    (reverb_set 0.4 0.5 0.1 false),
  p "Acid Bass" (osc .Saw 1.0 (-1.0) 0.0 false) no_osc no_osc
    0.0 0.55 (filt 120.0 0.8 4500.0 0.003 0.2 0.1 0.1) (env 0.003 0.2 0.9 0.1)
    false no_lfo (delay_set 0.18 0.35 0.22 true) (reverb_set 0.4 0.5 0.08 false),
  p "Rubber Bass" (osc .Square 1.0 (-2.0) 0.0 false) (osc .Saw 0.5 (-1.0) 0.2 false) no_osc
    0.0 0.0 (filt 180.0 0.667 2500.0 0.002 0.18 0.2 0.12) (env 0.002 0.2 0.7 0.1)
    false no_lfo (delay_set 0.25 0.3 0.2 false) (reverb_set 0.4 0.5 0.08 false),
  p "Wobble Bass" (osc .Saw 1.0 (-1.0) 0.0 false) (osc .Square 0.7 (-1.0) 0.3 false)
    (osc .Saw 0.5 (-2.0) 0.0 false)
    0.0 0.0 (filt 300.0 0.727 1000.0 0.005 0.3 0.7 0.2) (env 0.005 0.2 0.9 0.2)
    true (lfo 3.0 .Sine 0.0 1500.0) (delay_set 0.25 0.3 0.3 false) (reverb_set 0.5 0.5 0.1 false),
  p "Square Sub" (osc .Square 1.0 (-2.0) 0.0 false) (osc .Sine 0.5 (-3.0) 0.0 false) no_osc
    0.0 0.0 (filt 500.0 0.25 800.0 0.002 0.2 0.8 0.1) (env 0.003 0.15 0.85 0.1)
    false no_lfo (delay_set 0.25 0.3 0.2 false) (reverb_set 0.4 0.5 0.06 false),
  p "Growl Bass" (osc .Saw 1.0 (-2.0) 2.0 false) (osc .Saw 0.8 (-2.0) (-2.0) false)
    (osc .Square 0.6 (-1.0) 0.0 false)
    0.1 0.0 (filt 160.0 0.769 3000.0 0.004 0.3 0.4 0.15) (env 0.004 0.25 0.8 0.15)
    true (lfo 6.0 .Sine 0.0 600.0) (delay_set 0.2 0.3 0.2 true) (reverb_set 0.4 0.5 0.1 false),
  p "Pluck Bass" (osc .Saw 1.0 (-2.0) 0.0 false) (osc .Square 0.5 (-1.0) 0.3 false) no_osc
    0.0 0.0 (filt 250.0 0.7 5000.0 0.001 0.15 0.0 0.1) (env 0.001 0.2 0.0 0.12)
    false no_lfo (delay_set 0.22 0.3 0.2 true) (reverb_set 0.4 0.5 0.08 false),
  p "FM Bass" (osc .Sine 1.0 (-2.0) 0.0 false) (osc .Square 0.4 0.0 0.5 false)
    (osc .Sine 0.3 (-1.0) 0.0 false)
    0.0 0.0 (filt 600.0 0.571 1200.0 0.001 0.2 0.5 0.12) (env 0.001 0.18 0.7 0.1)
    false no_lfo (delay_set 0.25 0.3 0.15 false) (reverb_set 0.4 0.5 0.07 false),
  p "Detuned Bass" (osc .Saw 1.0 (-2.0) 3.0 false) (osc .Saw 0.9 (-2.0) (-3.0) false)
    (osc .Sine 0.5 (-3.0) 0.0 false)
    0.0 0.0 (filt 350.0 0.571 1500.0 0.004 0.25 0.6 0.15) (env 0.004 0.2 0.85 0.15)
    false no_lfo (delay_set 0.25 0.3 0.2 false) (reverb_set 0.4 0.5 0.1 false),
  p "808 Boom" (osc .Sine 1.0 (-3.0) 0.0 false) (osc .Sine 0.2 (-2.0) 0.0 false) no_osc
    0.0 0.5 (filt 1200.0 0.167 0.0 0.001 0.05 1.0 0.1) (env 0.001 1.2 0.0 0.6)
    false no_lfo (delay_set 0.25 0.3 0.1 false) (reverb_set 0.3 0.5 0.05 false),
  p "Hoover Bass" (osc .Saw 1.0 (-1.0) 4.0 false) (osc .Saw 1.0 (-1.0) (-4.0) false)
    (osc .Square 0.7 (-2.0) 0.0 true)
    0.0 0.3 (filt 450.0 0.667 2000.0 0.005 0.3 0.6 0.2) (env 0.005 0.25 0.85 0.2)
    true (lfo 0.3 .Sine 6.0 500.0) (delay_set 0.25 0.35 0.25 true) (reverb_set 0.5 0.5 0.12 true),
  p "Dub Bass" (osc .Sine 1.0 (-2.0) 0.0 false) (osc .Triangle 0.4 (-1.0) 0.0 false) no_osc
    0.0 0.2 (filt 220.0 0.5 600.0 0.01 0.3 0.6 0.2) (env 0.01 0.25 0.7 0.25)
    false no_lfo (delay_set 0.3 0.45 0.35 true) (reverb_set 0.6 0.5 0.18 true),
  p "Talking Bass" (osc .Saw 1.0 (-2.0) 0.0 false) (osc .Square 0.6 (-1.0) 0.3 false) no_osc
    0.0 0.0 (filt 300.0 0.769 2500.0 0.005 0.25 0.5 0.15) (env 0.005 0.2 0.8 0.15)
    true (lfo 2.5 .Triangle 0.0 1800.0) (delay_set 0.25 0.3 0.2 false)
    (reverb_set 0.4 0.5 0.1 false),
  p "Synth Bass 1" (osc .Saw 1.0 (-2.0) 0.0 false) (osc .Saw 0.5 (-2.0) 0.5 false)
    (osc .Square 0.4 (-1.0) 0.0 false)
    0.0 0.0 (filt 280.0 0.625 2200.0 0.002 0.22 0.4 0.12) (env 0.002 0.2 0.75 0.12)
    false no_lfo (delay_set 0.25 0.3 0.15 false) (reverb_set 0.4 0.5 0.08 false),
  p "Saw Bass" (osc .Saw 1.0 (-2.0) 0.0 false) (osc .Saw 0.6 (-3.0) 0.0 false) no_osc
    0.0 0.0 (filt 220.0 0.571 1800.0 0.002 0.2 0.5 0.12) (env 0.002 0.18 0.8 0.12)
    false no_lfo (delay_set 0.25 0.3 0.12 false) (reverb_set 0.4 0.5 0.07 false),
  p "Mini Bass" (osc .Triangle 1.0 (-2.0) 0.0 false) (osc .Square 0.6 (-2.0) 0.4 false)
    (osc .Saw 0.4 (-1.0) 0.0 false)
    0.0 0.0 (filt 260.0 0.667 2600.0 0.001 0.2 0.3 0.1) (env 0.001 0.2 0.7 0.1)
    false no_lfo (delay_set 0.25 0.3 0.12 false) (reverb_set 0.4 0.5 0.08 false)]

/-- Leads, 18 presets. -/
def leads_presets : List (Preset ℚ) := [
  p "Lucky Man" (osc .Square 1.0 0.0 0.0 true) (osc .Square 0.7 0.0 2.0 true)
    (osc .Square 0.7 0.0 (-2.0) true)
    0.0 0.92 (filt 200.0 0.211 3000.0 0.1 1.5 0.4 0.5) (env 0.05 0.2 1.0 0.5)
    true (lfo 5.0 .Sine 2.0 0.0) (delay_set 0.3 0.3 0.3 true) (reverb_set 0.5 0.5 0.1 false),
  p "Tom Sawyer" (osc .Saw 1.0 0.0 0.0 false) (osc .Saw 0.5 0.0 1.5 false) no_osc
    0.0 0.0 (filt 80.0 0.231 5000.0 0.03 2.0 0.1 0.1) (env 0.01 0.1 1.0 0.2)
    false no_lfo (delay_set 0.15 0.2 0.2 true) (reverb_set 0.3 0.5 0.1 false),
  p "Moog Scream" (osc .Saw 1.0 0.0 0.0 true) (osc .Saw 0.6 0.0 2.5 true)
    (osc .Square 0.8 0.0 (-2.5) true)
    0.15 0.85 (filt 100.0 0.824 6000.0 0.005 0.3 0.2 0.2) (env 0.005 0.2 1.0 0.2)
    true (lfo 0.15 .Sine 8.0 0.0) (delay_set 0.25 0.3 0.3 false) (reverb_set 0.5 0.5 0.2 true),
  p "Octavarium Lead" (osc .Saw 1.0 0.0 0.0 true) (osc .Saw 0.5 0.0 2.0 false)
    (osc .Square 0.3 0.0 0.0 false)
    0.0 0.94 (filt 500.0 0.286 4000.0 0.01 0.5 0.6 0.2) (env 0.005 0.1 1.0 0.2)
    true (lfo 5.5 .Sine 1.5 0.0) (delay_set 0.25 0.3 0.3 true) (reverb_set 0.5 0.5 0.1 true),
  p "Super Saw Lead" (osc .Saw 1.0 0.0 0.0 true) (osc .Saw 0.7 0.0 4.0 true)
    (osc .Saw 0.7 0.0 (-4.0) true)
    0.0 0.0 (filt 3000.0 0.167 3000.0 0.01 0.5 0.7 0.3) (env 0.01 0.2 1.0 0.3)
    true (lfo 5.5 .Sine 1.5 0.0) (delay_set 0.3 0.3 0.3 true) (reverb_set 0.4 0.5 0.1 true),
  p "Square Lead" (osc .Square 1.0 0.0 0.0 true) (osc .Square 0.4 1.0 0.0 false) no_osc
    0.0 0.0 (filt 2500.0 0.25 2000.0 0.005 0.3 0.8 0.2) (env 0.005 0.15 1.0 0.2)
    true (lfo 5.0 .Sine 1.2 0.0) (delay_set 0.3 0.3 0.25 true) (reverb_set 0.4 0.5 0.1 true),
  p "Mini Lead" (osc .Saw 1.0 0.0 0.0 true) (osc .Saw 0.6 0.0 0.5 false)
    (osc .Triangle 0.4 1.0 0.0 false)
    0.0 0.4 (filt 1800.0 0.571 2500.0 0.005 0.4 0.7 0.2) (env 0.005 0.2 1.0 0.2)
    true (lfo 5.5 .Sine 1.5 0.0) (delay_set 0.3 0.3 0.2 true) (reverb_set 0.4 0.5 0.1 true),
  p "Sync Lead" (osc .Saw 1.0 0.0 0.0 true) (osc .Square 0.7 1.0 7.0 false)
    (osc .Saw 0.4 0.0 (-3.0) false)
    0.0 0.0 (filt 1200.0 0.727 4000.0 0.005 0.5 0.6 0.2) (env 0.005 0.2 1.0 0.2)
    true (lfo 5.0 .Sine 1.0 1500.0) (delay_set 0.28 0.3 0.25 true) (reverb_set 0.4 0.5 0.1 true),
  p "Whistle Lead" (osc .Sine 1.0 1.0 0.0 true) (osc .Sine 0.3 2.0 0.0 false) no_osc
    0.0 0.3 (filt 4000.0 0.4 1000.0 0.02 0.3 0.9 0.2) (env 0.02 0.2 1.0 0.25)
    true (lfo 6.0 .Sine 2.5 0.0) (delay_set 0.3 0.35 0.3 true) (reverb_set 0.6 0.4 0.2 true),
  p "Portamento Lead" (osc .Saw 1.0 0.0 0.0 true) (osc .Square 0.6 0.0 0.0 false) no_osc
    0.0 0.95 (filt 900.0 0.667 3500.0 0.01 0.5 0.7 0.25) (env 0.01 0.2 1.0 0.3)
    true (lfo 5.0 .Sine 2.0 0.0) (delay_set 0.3 0.35 0.3 true) (reverb_set 0.5 0.5 0.15 true),
  p "Bright Saw Lead" (osc .Saw 1.0 0.0 0.0 true) (osc .Saw 0.5 1.0 2.0 true) no_osc
    0.0 0.0 (filt 5000.0 0.4 2000.0 0.005 0.3 0.8 0.2) (env 0.005 0.15 1.0 0.2)
    true (lfo 5.5 .Sine 1.2 0.0) (delay_set 0.3 0.3 0.25 true) (reverb_set 0.4 0.5 0.1 true),
  p "Soft Lead" (osc .Triangle 1.0 0.0 0.0 true) (osc .Sine 0.5 1.0 0.0 false) no_osc
    0.0 0.2 (filt 2500.0 0.25 1500.0 0.03 0.4 0.9 0.3) (env 0.03 0.2 1.0 0.35)
    true (lfo 5.0 .Sine 1.0 0.0) (delay_set 0.3 0.3 0.25 true) (reverb_set 0.5 0.4 0.2 true),
  p "Fifth Lead" (osc .Saw 1.0 0.0 0.0 true) (osc .Saw 0.7 0.585 0.0 false)
    (osc .Square 0.4 1.0 0.0 false)
    0.0 0.0 (filt 2200.0 0.5 2500.0 0.008 0.4 0.7 0.2) (env 0.008 0.2 1.0 0.25)
    true (lfo 5.2 .Sine 1.5 0.0) (delay_set 0.3 0.3 0.25 true) (reverb_set 0.45 0.5 0.12 true),
  p "Trance Lead" (osc .Saw 1.0 0.0 5.0 true) (osc .Saw 1.0 0.0 (-5.0) true)
    (osc .Saw 0.7 1.0 0.0 true)
    0.0 0.0 (filt 2800.0 0.571 3500.0 0.005 0.4 0.8 0.25) (env 0.005 0.2 1.0 0.3)
    true (lfo 6.0 .Sine 1.5 800.0) (delay_set 0.3 0.4 0.35 true) (reverb_set 0.6 0.4 0.2 true),
  p "Screaming Lead" (osc .Saw 1.0 0.0 0.0 true) (osc .Saw 0.8 0.0 3.0 true)
    (osc .Square 0.7 1.0 (-3.0) true)
    0.05 0.5 (filt 700.0 0.842 6000.0 0.004 0.4 0.5 0.2) (env 0.004 0.2 1.0 0.25)
    true (lfo 5.5 .Sine 3.0 0.0) (delay_set 0.3 0.35 0.3 true) (reverb_set 0.5 0.5 0.18 true),
  p "Pulse Lead" (osc .Square 1.0 0.0 0.3 true) (osc .Square 0.7 0.0 (-0.3) true)
    (osc .Square 0.5 1.0 0.0 false)
    0.0 0.0 (filt 2000.0 0.5 2500.0 0.006 0.35 0.8 0.2) (env 0.006 0.18 1.0 0.22)
    true (lfo 0.8 .Triangle 0.0 600.0) (delay_set 0.3 0.3 0.25 true)
    (reverb_set 0.4 0.5 0.12 true),
  p "Vintage Lead" (osc .Saw 1.0 0.0 0.0 true) (osc .Triangle 0.6 0.0 1.0 false)
    (osc .Square 0.3 (-1.0) 0.0 false)
    0.0 0.6 (filt 1500.0 0.625 3000.0 0.01 0.5 0.6 0.25) (env 0.01 0.2 1.0 0.3)
    true (lfo 4.8 .Sine 2.0 0.0) (delay_set 0.3 0.32 0.28 true) (reverb_set 0.5 0.5 0.15 true),
  p "Octave Lead" (osc .Saw 1.0 0.0 0.0 true) (osc .Saw 0.7 1.0 0.0 false)
    (osc .Saw 0.4 (-1.0) 0.0 false)
    0.0 0.0 (filt 2600.0 0.4 2500.0 0.006 0.35 0.8 0.2) (env 0.006 0.18 1.0 0.22)
    true (lfo 5.5 .Sine 1.3 0.0) (delay_set 0.3 0.3 0.25 true) (reverb_set 0.4 0.5 0.12 true)]

/-- Pads, 18 presets. -/
def pads_presets : List (Preset ℚ) := [
  p "Glass Pad" (osc .Triangle 0.9 0.0 0.0 false) (osc .Sine 0.7 1.0 0.2 false)
    (osc .Triangle 0.5 0.0 (-0.2) false)
    0.0 0.0 (filt 1200.0 0.118 1500.0 0.8 1.0 0.8 1.5) (env 0.9 0.5 1.0 1.8)
    true (lfo 0.3 .Sine 0.0 400.0) (delay_set 0.25 0.3 0.3 false) (reverb_set 0.7 0.4 0.3 true),
  p "Warm Pad" (osc .Saw 0.8 0.0 0.3 false) (osc .Saw 0.8 0.0 (-0.3) false)
    (osc .Triangle 0.5 (-1.0) 0.0 false)
    0.0 0.0 (filt 900.0 0.4 1200.0 1.0 1.2 0.85 1.8) (env 1.0 0.6 1.0 2.0)
    true (lfo 0.25 .Sine 0.0 300.0) (delay_set 0.3 0.3 0.2 false) (reverb_set 0.8 0.4 0.3 true),
  p "String Pad" (osc .Saw 0.9 0.0 0.5 false) (osc .Saw 0.9 0.0 (-0.5) false)
    (osc .Saw 0.6 1.0 0.2 false)
    0.0 0.0 (filt 1600.0 0.25 1500.0 0.6 1.0 0.85 1.2) (env 0.7 0.5 1.0 1.4)
    true (lfo 0.4 .Sine 0.3 400.0) (delay_set 0.3 0.3 0.2 false) (reverb_set 0.75 0.45 0.3 true),
  p "Choir Pad" (osc .Sine 1.0 0.0 0.0 false) (osc .Triangle 0.6 0.0 0.4 false)
    (osc .Sine 0.5 1.0 (-0.4) false)
    0.05 0.0 (filt 2000.0 0.5 1000.0 0.9 1.0 0.9 1.6) (env 0.9 0.6 1.0 1.8)
    true (lfo 5.0 .Sine 1.5 200.0) (delay_set 0.3 0.3 0.2 false) (reverb_set 0.85 0.4 0.35 true),
  p "Sweep Pad" (osc .Saw 0.9 0.0 0.4 false) (osc .Saw 0.7 0.0 (-0.4) false)
    (osc .Square 0.5 (-1.0) 0.0 false)
    0.0 0.0 (filt 400.0 0.667 4000.0 2.0 2.0 0.8 2.0) (env 0.8 1.0 1.0 2.0)
    true (lfo 0.15 .Sine 0.0 1500.0) (delay_set 0.3 0.35 0.3 true) (reverb_set 0.8 0.4 0.3 true),
  p "Dark Pad" (osc .Saw 0.9 (-1.0) 0.3 false) (osc .Triangle 0.7 (-1.0) (-0.3) false)
    (osc .Sine 0.5 (-2.0) 0.0 false)
    0.0 0.0 (filt 500.0 0.5 800.0 1.2 1.5 0.7 2.0) (env 1.2 0.8 1.0 2.5)
    true (lfo 0.12 .Sine 0.0 250.0) (delay_set 0.3 0.4 0.3 true) (reverb_set 0.9 0.35 0.35 true),
  p "Shimmer Pad" (osc .Sine 1.0 0.0 0.0 false) (osc .Sine 0.6 1.0 0.3 false)
    (osc .Triangle 0.4 2.0 0.0 false)
    0.0 0.0 (filt 3000.0 0.25 1500.0 0.7 1.0 0.85 1.6) (env 0.8 0.6 1.0 2.0)
    true (lfo 0.2 .Sine 0.0 800.0) (delay_set 0.3 0.45 0.35 true) (reverb_set 0.9 0.3 0.4 true),
  p "Analog Pad" (osc .Saw 0.9 0.0 0.6 false) (osc .Square 0.7 0.0 (-0.6) false)
    (osc .Saw 0.5 (-1.0) 0.0 false)
    0.0 0.0 (filt 1100.0 0.444 1500.0 0.7 1.0 0.8 1.4) (env 0.7 0.6 1.0 1.6)
    true (lfo 0.5 .Sine 0.4 350.0) (delay_set 0.3 0.3 0.2 false) (reverb_set 0.7 0.45 0.3 true),
  p "Soft Pad" (osc .Triangle 1.0 0.0 0.2 false) (osc .Sine 0.7 0.0 (-0.2) false)
    (osc .Triangle 0.4 1.0 0.0 false)
    0.0 0.0 (filt 1500.0 0.167 800.0 1.0 1.0 0.9 1.8) (env 1.0 0.6 1.0 2.0)
    true (lfo 0.3 .Sine 0.0 250.0) (delay_set 0.3 0.3 0.2 false) (reverb_set 0.8 0.4 0.3 true),
  p "Evolving Pad" (osc .Saw 0.8 0.0 0.7 false) (osc .Saw 0.8 0.0 (-0.7) false)
    (osc .Triangle 0.6 1.0 0.3 false)
    0.0 0.0 (filt 700.0 0.571 3000.0 1.5 2.0 0.75 2.2) (env 1.0 1.0 1.0 2.5)
    true (lfo 0.08 .Triangle 0.0 2000.0) (delay_set 0.3 0.45 0.3 true)
    (reverb_set 0.85 0.4 0.35 true),
  p "Octave Pad" (osc .Saw 0.9 0.0 0.3 false) (osc .Saw 0.6 1.0 (-0.3) false)
    (osc .Triangle 0.5 (-1.0) 0.0 false)
    0.0 0.0 (filt 1400.0 0.318 1500.0 0.8 1.0 0.85 1.5) (env 0.8 0.6 1.0 1.7)
    true (lfo 0.4 .Sine 0.0 400.0) (delay_set 0.3 0.3 0.2 false) (reverb_set 0.75 0.45 0.3 true),
  p "Detuned Pad" (osc .Saw 0.9 0.0 1.0 false) (osc .Saw 0.9 0.0 (-1.0) false)
    (osc .Saw 0.7 0.0 2.0 false)
    0.0 0.0 (filt 1000.0 0.4 1500.0 0.9 1.0 0.85 1.6) (env 0.9 0.6 1.0 1.8)
    true (lfo 0.3 .Sine 0.5 350.0) (delay_set 0.3 0.35 0.25 true) (reverb_set 0.8 0.4 0.3 true),
  p "Ambient Pad" (osc .Sine 1.0 0.0 0.2 false) (osc .Triangle 0.6 1.0 (-0.2) false)
    (osc .Sine 0.4 2.0 0.0 false)
    0.0 0.0 (filt 2200.0 0.25 1200.0 1.5 1.5 0.85 2.5) (env 1.5 1.0 1.0 3.0)
    true (lfo 0.1 .Sine 0.0 500.0) (delay_set 0.3 0.5 0.4 true) (reverb_set 0.95 0.3 0.45 true),
  p "Voltage Pad" (osc .Saw 0.9 0.0 0.5 true) (osc .Square 0.7 0.0 (-0.5) true)
    (osc .Saw 0.5 (-1.0) 0.0 true)
    0.0 0.0 (filt 800.0 0.625 2500.0 1.0 1.5 0.8 2.0) (env 0.9 0.8 1.0 2.2)
    true (lfo 0.2 .Sine 0.8 900.0) (delay_set 0.3 0.4 0.3 true) (reverb_set 0.85 0.4 0.35 true),
  p "Halo Pad" (osc .Sine 1.0 1.0 0.0 false) (osc .Sine 0.6 2.0 0.3 false)
    (osc .Triangle 0.4 0.0 0.0 false)
    0.0 0.0 (filt 3500.0 0.211 1000.0 1.0 1.2 0.85 2.0) (env 1.0 0.8 1.0 2.5)
    true (lfo 0.15 .Sine 0.0 700.0) (delay_set 0.3 0.45 0.35 true)
    (reverb_set 0.95 0.3 0.45 true),
  p "Wide Pad" (osc .Saw 0.9 0.0 2.0 false) (osc .Saw 0.9 0.0 (-2.0) false)
    (osc .Triangle 0.6 0.0 4.0 false)
    0.0 0.0 (filt 1300.0 0.348 1500.0 0.8 1.0 0.85 1.6) (env 0.9 0.6 1.0 1.8)
    true (lfo 0.35 .Sine 0.5 400.0) (delay_set 0.3 0.4 0.3 true) (reverb_set 0.85 0.4 0.35 true),
  p "Aurora Pad" (osc .Triangle 0.9 0.0 0.3 false) (osc .Sine 0.7 1.0 (-0.3) false)
    (osc .Saw 0.4 0.585 0.0 false)
    0.0 0.0 (filt 1800.0 0.5 2500.0 1.3 1.5 0.8 2.2) (env 1.3 0.9 1.0 2.5)
    true (lfo 0.12 .Triangle 0.0 1200.0) (delay_set 0.3 0.45 0.35 true)
    (reverb_set 0.9 0.35 0.4 true),
  p "Mystic Pad" (osc .Sine 0.9 0.0 0.4 false) (osc .Triangle 0.7 0.585 (-0.4) false)
    (osc .Sine 0.5 1.585 0.0 false)
    0.0 0.0 (filt 1600.0 0.4 2000.0 1.2 1.4 0.8 2.0) (env 1.2 0.8 1.0 2.4)
    true (lfo 0.18 .Sine 0.4 800.0) (delay_set 0.3 0.45 0.32 true) (reverb_set 0.9 0.35 0.4 true)]

/-- Keys & Organs, 14 presets. -/
def keys_organs_presets : List (Preset ℚ) := [
  p "Drawbar Organ" (osc .Sine 1.0 0.0 0.0 false) (osc .Sine 0.7 1.0 0.0 false)
    (osc .Sine 0.5 1.585 0.0 false)
    0.0 0.0 (filt 8000.0 0.0 0.0 0.005 0.0 1.0 0.05) (env 0.005 0.0 1.0 0.08)
    true (lfo 6.0 .Sine 0.5 0.0) (delay_set 0.25 0.3 0.3 false) (reverb_set 0.4 0.5 0.15 true),
  p "Rock Organ" (osc .Sine 1.0 0.0 0.0 false) (osc .Sine 0.8 1.0 0.0 false)
    (osc .Square 0.5 2.0 0.0 false)
    0.0 0.0 (filt 6000.0 0.4 0.0 0.005 0.0 1.0 0.05) (env 0.005 0.0 1.0 0.06)
    true (lfo 6.5 .Sine 0.8 300.0) (delay_set 0.25 0.3 0.2 false) (reverb_set 0.4 0.5 0.15 true),
  p "Full Organ" (osc .Sine 1.0 (-1.0) 0.0 false) (osc .Sine 0.8 0.0 0.0 false)
    (osc .Sine 0.6 1.0 0.0 false)
    0.0 0.0 (filt 9000.0 0.0 0.0 0.003 0.0 1.0 0.04) (env 0.003 0.0 1.0 0.05)
    true (lfo 7.0 .Sine 0.6 0.0) (delay_set 0.25 0.3 0.15 false) (reverb_set 0.45 0.5 0.18 true),
  p "Electric Piano" (osc .Sine 1.0 0.0 0.0 false) (osc .Sine 0.5 2.0 0.0 false)
    (osc .Triangle 0.2 0.0 0.0 false)
    0.0 0.0 (filt 4000.0 0.167 1500.0 0.001 0.6 0.3 0.4) (env 0.001 0.8 0.3 0.4)
    false no_lfo (delay_set 0.25 0.25 0.12 false) (reverb_set 0.5 0.45 0.15 true),
  p "Soft Clav" (osc .Square 1.0 0.0 0.0 false) (osc .Square 0.4 1.0 0.2 false) no_osc
    0.0 0.0 (filt 1200.0 0.625 3000.0 0.001 0.25 0.1 0.15) (env 0.001 0.3 0.2 0.15)
    false no_lfo (delay_set 0.22 0.3 0.15 true) (reverb_set 0.4 0.5 0.1 true),
  p "Pipe Organ" (osc .Sine 1.0 0.0 0.0 false) (osc .Sine 0.6 1.0 0.0 false)
    (osc .Sine 0.4 2.0 0.0 false)
    0.0 0.0 (filt 7000.0 0.0 0.0 0.05 0.0 1.0 0.15) (env 0.05 0.0 1.0 0.2)
    false no_lfo (delay_set 0.25 0.3 0.15 false) (reverb_set 0.9 0.4 0.4 true),
  p "Church Organ" (osc .Sine 1.0 (-1.0) 0.0 false) (osc .Sine 0.7 0.0 0.0 false)
    (osc .Sine 0.5 1.585 0.0 false)
    0.0 0.0 (filt 6500.0 0.0 0.0 0.08 0.0 1.0 0.2) (env 0.08 0.0 1.0 0.25)
    false no_lfo (delay_set 0.3 0.3 0.15 false) (reverb_set 0.95 0.35 0.45 true),
  p "Jazz Organ" (osc .Sine 1.0 0.0 0.0 false) (osc .Sine 0.6 1.0 0.0 false)
    (osc .Sine 0.7 0.585 0.0 false)
    0.0 0.0 (filt 7500.0 0.25 0.0 0.004 0.0 1.0 0.05) (env 0.004 0.0 1.0 0.06)
    true (lfo 6.5 .Sine 0.7 150.0) (delay_set 0.25 0.3 0.15 false) (reverb_set 0.5 0.5 0.18 true),
  p "Percussive Organ" (osc .Sine 1.0 0.0 0.0 false) (osc .Sine 0.5 2.0 0.0 false)
    (osc .Sine 0.7 1.0 0.0 false)
    0.0 0.0 (filt 8000.0 0.25 2000.0 0.001 0.15 1.0 0.05) (env 0.001 0.2 0.8 0.06)
    true (lfo 6.0 .Sine 0.5 0.0) (delay_set 0.25 0.3 0.12 false) (reverb_set 0.4 0.5 0.12 true),
  p "Combo Organ" (osc .Square 1.0 0.0 0.0 false) (osc .Square 0.6 1.0 0.0 false)
    (osc .Saw 0.3 2.0 0.0 false)
    0.0 0.0 (filt 5000.0 0.25 0.0 0.005 0.0 1.0 0.05) (env 0.005 0.0 1.0 0.06)
    true (lfo 6.5 .Sine 1.0 200.0) (delay_set 0.25 0.3 0.15 false) (reverb_set 0.4 0.5 0.12 true),
  p "Reed Organ" (osc .Saw 0.8 0.0 0.0 false) (osc .Sine 0.7 1.0 0.2 false)
    (osc .Triangle 0.4 0.0 (-0.2) false)
    0.0 0.0 (filt 4500.0 0.25 500.0 0.04 0.0 1.0 0.12) (env 0.04 0.0 1.0 0.15)
    true (lfo 5.0 .Sine 0.6 0.0) (delay_set 0.25 0.3 0.15 false) (reverb_set 0.6 0.5 0.2 true),
  p "Tonewheel" (osc .Sine 1.0 0.0 0.0 false) (osc .Sine 0.8 1.0 0.0 false)
    (osc .Sine 0.6 2.585 0.0 false)
    0.0 0.0 (filt 8500.0 0.0 0.0 0.004 0.0 1.0 0.05) (env 0.004 0.0 1.0 0.06)
    true (lfo 7.2 .Sine 0.7 250.0) (delay_set 0.25 0.3 0.12 false)
    (reverb_set 0.45 0.5 0.15 true),
  p "Bell Piano" (osc .Sine 1.0 0.0 0.0 false) (osc .Sine 0.5 2.0 1.0 false)
    (osc .Triangle 0.3 1.0 0.0 false)
    0.0 0.0 (filt 5000.0 0.118 1000.0 0.001 1.0 0.2 0.6) (env 0.001 1.0 0.2 0.8)
    false no_lfo (delay_set 0.3 0.3 0.2 true) (reverb_set 0.6 0.4 0.25 true),
  p "Synth Clav" (osc .Square 1.0 0.0 0.0 false) (osc .Saw 0.5 0.0 0.3 false)
    (osc .Square 0.3 1.0 0.0 false)
    0.0 0.0 (filt 1500.0 0.667 4000.0 0.001 0.2 0.0 0.12) (env 0.001 0.25 0.0 0.12)
    false no_lfo (delay_set 0.2 0.3 0.15 true) (reverb_set 0.4 0.5 0.1 true)]

/-- Plucks, 10 presets. -/
def plucks_presets : List (Preset ℚ) := [
  p "Snappy Pluck" (osc .Saw 1.0 0.0 0.0 false) (osc .Square 0.5 0.0 0.3 false) no_osc
    0.0 0.0 (filt 300.0 0.667 5000.0 0.001 0.18 0.0 0.15) (env 0.001 0.25 0.0 0.2)
    false no_lfo (delay_set 0.25 0.35 0.3 true) (reverb_set 0.4 0.5 0.1 true),
  p "Nylon Pluck" (osc .Triangle 1.0 0.0 0.0 false) (osc .Sine 0.5 1.0 0.0 false) no_osc
    0.0 0.0 (filt 2500.0 0.25 2000.0 0.001 0.4 0.0 0.3) (env 0.001 0.5 0.0 0.3)
    false no_lfo (delay_set 0.25 0.25 0.15 true) (reverb_set 0.5 0.45 0.18 true),
  p "Synth Pluck" (osc .Saw 1.0 0.0 0.0 false) (osc .Saw 0.5 0.0 3.0 false)
    (osc .Square 0.3 1.0 0.0 false)
    0.0 0.0 (filt 800.0 0.571 4000.0 0.001 0.25 0.0 0.2) (env 0.001 0.3 0.0 0.25)
    false no_lfo (delay_set 0.3 0.35 0.3 true) (reverb_set 0.5 0.5 0.15 true),
  p "Glass Pluck" (osc .Sine 1.0 0.0 0.0 false) (osc .Sine 0.5 2.0 0.0 false)
    (osc .Triangle 0.3 1.0 0.0 false)
    0.0 0.0 (filt 5000.0 0.25 2000.0 0.001 0.3 0.0 0.3) (env 0.001 0.4 0.0 0.4)
    false no_lfo (delay_set 0.3 0.35 0.3 true) (reverb_set 0.65 0.4 0.25 true),
  p "Square Pluck" (osc .Square 1.0 0.0 0.0 false) (osc .Square 0.4 1.0 0.2 false) no_osc
    0.0 0.0 (filt 1000.0 0.5 3500.0 0.001 0.2 0.0 0.18) (env 0.001 0.25 0.0 0.2)
    false no_lfo (delay_set 0.28 0.35 0.28 true) (reverb_set 0.45 0.5 0.12 true),
  p "Koto Pluck" (osc .Triangle 1.0 0.0 0.0 false) (osc .Saw 0.3 0.0 0.5 false)
    (osc .Sine 0.3 1.0 0.0 false)
    0.0 0.0 (filt 3000.0 0.4 3000.0 0.001 0.3 0.0 0.25) (env 0.001 0.4 0.0 0.3)
    false no_lfo (delay_set 0.3 0.3 0.2 true) (reverb_set 0.55 0.45 0.2 true),
  p "Harp Pluck" (osc .Sine 1.0 0.0 0.0 false) (osc .Triangle 0.5 1.0 0.0 false)
    (osc .Sine 0.3 2.0 0.0 false)
    0.0 0.0 (filt 4000.0 0.167 2000.0 0.001 0.6 0.0 0.5) (env 0.001 0.7 0.0 0.6)
    false no_lfo (delay_set 0.3 0.3 0.2 true) (reverb_set 0.7 0.4 0.25 true),
  p "Muted Pluck" (osc .Triangle 1.0 0.0 0.0 false) (osc .Square 0.3 0.0 0.2 false) no_osc
    0.0 0.0 (filt 900.0 0.5 1500.0 0.001 0.12 0.0 0.1) (env 0.001 0.15 0.0 0.12)
    false no_lfo (delay_set 0.25 0.3 0.15 true) (reverb_set 0.4 0.5 0.08 true),
  p "Bright Pluck" (osc .Saw 1.0 0.0 0.0 false) (osc .Saw 0.6 1.0 2.0 false) no_osc
    0.0 0.0 (filt 6000.0 0.4 3000.0 0.001 0.2 0.0 0.2) (env 0.001 0.25 0.0 0.22)
    false no_lfo (delay_set 0.3 0.35 0.3 true) (reverb_set 0.5 0.45 0.15 true),
  p "Bass Pluck" (osc .Saw 1.0 (-1.0) 0.0 false) (osc .Square 0.5 (-1.0) 0.3 false) no_osc
    0.0 0.0 (filt 500.0 0.625 4000.0 0.001 0.2 0.0 0.15) (env 0.001 0.25 0.0 0.18)
    false no_lfo (delay_set 0.25 0.3 0.2 true) (reverb_set 0.4 0.5 0.1 true)]

/-- Brass & Strings, 12 presets. -/
def brass_strings_presets : List (Preset ℚ) := [
  p "Fat Brass" (osc .Saw 1.0 0.0 0.0 true) (osc .Saw 0.8 0.0 3.0 true)
    (osc .Saw 0.8 0.0 (-3.0) true)
    0.0 0.0 (filt 400.0 0.167 4000.0 0.08 0.4 0.6 0.3) (env 0.03 0.2 1.0 0.3)
    true (lfo 5.0 .Sine 1.0 0.0) (delay_set 0.25 0.3 0.3 false) (reverb_set 0.4 0.5 0.12 true),
  p "PWM Strings" (osc .Square 0.9 0.0 0.5 false) (osc .Square 0.9 0.0 (-0.5) false)
    (osc .Square 0.6 1.0 0.3 false)
    0.0 0.0 (filt 2000.0 0.118 1200.0 0.4 0.8 0.8 0.8) (env 0.5 0.5 1.0 0.9)
    true (lfo 0.5 .Sine 0.5 300.0) (delay_set 0.25 0.3 0.3 false) (reverb_set 0.6 0.5 0.2 true),
  p "Synth Brass" (osc .Saw 1.0 0.0 0.0 true) (osc .Square 0.6 0.0 1.0 true)
    (osc .Saw 0.5 1.0 0.0 false)
    0.0 0.0 (filt 600.0 0.5 4500.0 0.05 0.3 0.7 0.25) (env 0.04 0.2 1.0 0.25)
    true (lfo 5.0 .Sine 1.2 0.0) (delay_set 0.25 0.3 0.2 false) (reverb_set 0.45 0.5 0.15 true),
  p "Brass Section" (osc .Saw 1.0 0.0 2.0 true) (osc .Saw 0.9 0.0 (-2.0) true)
    (osc .Saw 0.7 1.0 0.0 true)
    0.0 0.0 (filt 700.0 0.4 4000.0 0.07 0.4 0.7 0.3) (env 0.06 0.25 1.0 0.3)
    true (lfo 5.2 .Sine 1.5 0.0) (delay_set 0.25 0.3 0.2 true) (reverb_set 0.5 0.5 0.18 true),
  p "Soft Strings" (osc .Saw 0.8 0.0 0.4 false) (osc .Saw 0.8 0.0 (-0.4) false)
    (osc .Triangle 0.5 1.0 0.0 false)
    0.0 0.0 (filt 1800.0 0.25 1200.0 0.5 0.8 0.85 1.0) (env 0.6 0.5 1.0 1.2)
    true (lfo 0.4 .Sine 0.4 300.0) (delay_set 0.3 0.3 0.2 false) (reverb_set 0.75 0.45 0.3 true),
  p "Saw Strings" (osc .Saw 0.9 0.0 0.6 false) (osc .Saw 0.9 0.0 (-0.6) false)
    (osc .Saw 0.6 0.0 1.5 false)
    0.0 0.0 (filt 2200.0 0.318 1500.0 0.4 0.7 0.85 0.9) (env 0.5 0.5 1.0 1.0)
    true (lfo 0.5 .Sine 0.5 350.0) (delay_set 0.3 0.3 0.2 false) (reverb_set 0.7 0.45 0.28 true),
  p "Octave Brass" (osc .Saw 1.0 0.0 0.0 true) (osc .Saw 0.7 1.0 2.0 true)
    (osc .Square 0.5 (-1.0) 0.0 false)
    0.0 0.0 (filt 650.0 0.444 4000.0 0.06 0.35 0.7 0.3) (env 0.05 0.25 1.0 0.3)
    true (lfo 5.0 .Sine 1.2 0.0) (delay_set 0.25 0.3 0.2 true) (reverb_set 0.5 0.5 0.15 true),
  p "Trumpet Lead" (osc .Saw 1.0 0.0 0.0 true) (osc .Square 0.5 0.0 0.5 true) no_osc
    0.0 0.3 (filt 800.0 0.571 4500.0 0.04 0.3 0.6 0.2) (env 0.03 0.2 1.0 0.2)
    true (lfo 5.5 .Sine 2.0 0.0) (delay_set 0.28 0.3 0.2 true) (reverb_set 0.5 0.5 0.18 true),
  p "Horn Section" (osc .Saw 1.0 0.0 1.0 true) (osc .Saw 0.8 0.0 (-1.0) true)
    (osc .Triangle 0.5 (-1.0) 0.0 true)
    0.0 0.0 (filt 550.0 0.348 3500.0 0.1 0.5 0.7 0.35) (env 0.08 0.3 1.0 0.35)
    true (lfo 4.8 .Sine 1.0 0.0) (delay_set 0.25 0.3 0.2 true) (reverb_set 0.55 0.5 0.2 true),
  p "String Ensemble" (osc .Saw 0.9 0.0 0.7 false) (osc .Saw 0.9 0.0 (-0.7) false)
    (osc .Saw 0.7 1.0 0.4 false)
    0.0 0.0 (filt 2000.0 0.211 1500.0 0.6 1.0 0.85 1.2) (env 0.7 0.6 1.0 1.4)
    true (lfo 0.45 .Sine 0.6 400.0) (delay_set 0.3 0.3 0.25 true) (reverb_set 0.8 0.4 0.3 true),
  p "Cinematic Strings" (osc .Saw 0.9 0.0 1.0 false) (osc .Saw 0.9 (-1.0) (-1.0) false)
    (osc .Triangle 0.6 0.0 0.5 false)
    0.0 0.0 (filt 1500.0 0.286 2500.0 1.2 1.2 0.85 2.0) (env 1.0 0.8 1.0 2.2)
    true (lfo 0.2 .Sine 0.5 600.0) (delay_set 0.3 0.45 0.3 true) (reverb_set 0.9 0.35 0.4 true),
  p "Brass Stab" (osc .Saw 1.0 0.0 1.5 true) (osc .Saw 0.8 0.0 (-1.5) true)
    (osc .Square 0.6 0.0 0.0 false)
    0.0 0.0 (filt 900.0 0.5 4000.0 0.005 0.2 0.0 0.15) (env 0.005 0.25 0.0 0.18)
    false no_lfo (delay_set 0.25 0.3 0.2 true) (reverb_set 0.5 0.5 0.15 true)]

/-- Bells & Mallets, 10 presets. -/
def bells_mallets_presets : List (Preset ℚ) := [
  p "Crystal Bell" (osc .Sine 1.0 0.0 0.0 false) (osc .Sine 0.5 1.0 1.0 false)
    (osc .Sine 0.3 2.0 0.0 false)
    0.0 0.0 (filt 6000.0 0.062 0.0 0.001 1.5 0.0 1.5) (env 0.001 1.5 0.0 1.8)
    false no_lfo (delay_set 0.3 0.25 0.2 true) (reverb_set 0.7 0.4 0.3 true),
  p "Glass Bell" (osc .Sine 1.0 0.0 0.0 false) (osc .Sine 0.4 2.585 0.0 false)
    (osc .Triangle 0.2 1.0 0.0 false)
    0.0 0.0 (filt 7000.0 0.118 0.0 0.001 1.2 0.0 1.2) (env 0.001 1.2 0.0 1.5)
    false no_lfo (delay_set 0.3 0.3 0.25 true) (reverb_set 0.8 0.35 0.35 true),
  p "Tubular Bell" (osc .Sine 1.0 0.0 0.0 false) (osc .Sine 0.6 1.585 0.0 false)
    (osc .Sine 0.3 3.0 0.0 false)
    0.0 0.0 (filt 5500.0 0.062 0.0 0.001 2.5 0.1 2.5) (env 0.001 2.5 0.1 3.0)
    false no_lfo (delay_set 0.3 0.3 0.25 true) (reverb_set 0.9 0.3 0.4 true),
  p "Music Box" (osc .Sine 1.0 1.0 0.0 false) (osc .Sine 0.4 2.0 0.5 false)
    (osc .Triangle 0.2 3.0 0.0 false)
    0.0 0.0 (filt 8000.0 0.118 0.0 0.001 0.8 0.0 0.8) (env 0.001 0.8 0.0 1.0)
    false no_lfo (delay_set 0.3 0.3 0.25 true) (reverb_set 0.75 0.35 0.3 true),
  p "Marimba" (osc .Sine 1.0 0.0 0.0 false) (osc .Sine 0.3 1.585 0.0 false)
    (osc .Triangle 0.2 1.0 0.0 false)
    0.0 0.0 (filt 4000.0 0.167 1000.0 0.001 0.4 0.0 0.3) (env 0.001 0.45 0.0 0.35)
    false no_lfo (delay_set 0.25 0.25 0.15 true) (reverb_set 0.5 0.45 0.18 true),
  p "Vibraphone" (osc .Sine 1.0 0.0 0.0 true) (osc .Sine 0.4 2.0 0.0 true)
    (osc .Triangle 0.2 1.0 0.0 false)
    0.0 0.0 (filt 5000.0 0.118 500.0 0.001 1.2 0.3 1.0) (env 0.001 1.2 0.3 1.2)
    true (lfo 5.0 .Sine 2.0 0.0) (delay_set 0.3 0.3 0.2 true) (reverb_set 0.7 0.4 0.28 true),
  p "Kalimba" (osc .Sine 1.0 0.0 0.0 false) (osc .Triangle 0.3 1.0 0.0 false)
    (osc .Sine 0.2 2.585 0.0 false)
    0.0 0.0 (filt 3500.0 0.25 1500.0 0.001 0.5 0.0 0.4) (env 0.001 0.5 0.0 0.45)
    false no_lfo (delay_set 0.28 0.3 0.2 true) (reverb_set 0.55 0.45 0.22 true),
  p "Glockenspiel" (osc .Sine 1.0 1.0 0.0 false) (osc .Sine 0.5 3.0 0.0 false)
    (osc .Sine 0.2 2.0 1.0 false)
    0.0 0.0 (filt 9000.0 0.062 0.0 0.001 0.7 0.0 0.6) (env 0.001 0.7 0.0 0.7)
    false no_lfo (delay_set 0.3 0.3 0.2 true) (reverb_set 0.8 0.35 0.32 true),
  p "Temple Bell" (osc .Sine 1.0 0.0 0.0 false) (osc .Sine 0.6 1.585 2.0 false)
    (osc .Sine 0.4 2.585 0.0 false)
    0.0 0.0 (filt 4500.0 0.118 0.0 0.001 3.0 0.0 3.0) (env 0.001 3.0 0.0 3.5)
    false no_lfo (delay_set 0.3 0.35 0.3 true) (reverb_set 0.95 0.3 0.45 true),
  p "Celesta" (osc .Sine 1.0 1.0 0.0 false) (osc .Sine 0.4 2.0 0.0 false)
    (osc .Triangle 0.25 0.0 0.0 false)
    0.0 0.0 (filt 7500.0 0.118 0.0 0.001 1.0 0.0 0.9) (env 0.001 1.0 0.0 1.0)
    false no_lfo (delay_set 0.3 0.3 0.2 true) (reverb_set 0.7 0.4 0.3 true)]

/-- Arps & Sequences, 8 presets. -/
def arps_sequences_presets : List (Preset ℚ) := [
  p "Acid Line" (osc .Saw 1.0 0.0 0.0 false) no_osc no_osc
    0.0 0.6 (filt 120.0 0.8 4000.0 0.005 0.25 0.2 0.1) (env 0.005 0.2 1.0 0.1)
    false no_lfo (delay_set 0.18 0.35 0.25 true) (reverb_set 0.5 0.5 0.1 false),
  p "Sequence Saw" (osc .Saw 1.0 0.0 0.0 false) (osc .Saw 0.4 0.0 0.4 false) no_osc
    0.0 0.0 (filt 700.0 0.667 4000.0 0.001 0.18 0.0 0.12) (env 0.001 0.2 0.0 0.12)
    false no_lfo (delay_set 0.1875 0.4 0.3 true) (reverb_set 0.4 0.5 0.12 true),
  p "Pluck Arp" (osc .Saw 1.0 0.0 0.0 false) (osc .Square 0.4 1.0 0.0 false) no_osc
    0.0 0.0 (filt 900.0 0.571 4500.0 0.001 0.15 0.0 0.1) (env 0.001 0.18 0.0 0.12)
    false no_lfo (delay_set 0.1875 0.45 0.35 true) (reverb_set 0.45 0.5 0.15 true),
  p "Square Arp" (osc .Square 1.0 0.0 0.0 false) (osc .Square 0.4 1.0 0.2 false) no_osc
    0.0 0.0 (filt 1200.0 0.5 3500.0 0.001 0.12 0.0 0.1) (env 0.001 0.15 0.0 0.1)
    false no_lfo (delay_set 0.125 0.45 0.35 true) (reverb_set 0.4 0.5 0.12 true),
  p "Octave Arp" (osc .Saw 1.0 0.0 0.0 false) (osc .Saw 0.5 1.0 0.0 false)
    (osc .Square 0.3 (-1.0) 0.0 false)
    0.0 0.0 (filt 1000.0 0.571 4000.0 0.001 0.15 0.0 0.1) (env 0.001 0.18 0.0 0.12)
    false no_lfo (delay_set 0.1875 0.45 0.35 true) (reverb_set 0.45 0.5 0.15 true),
  p "Digital Arp" (osc .Square 1.0 0.0 0.0 false) (osc .Saw 0.3 2.0 0.0 false)
    (osc .Sine 0.3 1.0 0.0 false)
    0.0 0.0 (filt 2500.0 0.4 3000.0 0.001 0.1 0.0 0.08) (env 0.001 0.12 0.0 0.1)
    false no_lfo (delay_set 0.125 0.5 0.4 true) (reverb_set 0.5 0.45 0.18 true),
  p "Soft Arp" (osc .Triangle 1.0 0.0 0.0 false) (osc .Sine 0.5 1.0 0.0 false) no_osc
    0.0 0.0 (filt 1500.0 0.25 2000.0 0.001 0.25 0.0 0.2) (env 0.001 0.3 0.0 0.2)
    false no_lfo (delay_set 0.25 0.4 0.35 true) (reverb_set 0.6 0.45 0.22 true),
  p "Chase Sequence" (osc .Saw 1.0 0.0 2.0 false) (osc .Saw 0.7 0.0 (-2.0) false)
    (osc .Square 0.4 1.0 0.0 false)
    0.0 0.0 (filt 800.0 0.727 4000.0 0.001 0.12 0.0 0.1) (env 0.001 0.15 0.0 0.1)
    true (lfo 0.25 .Square 0.0 2000.0) (delay_set 0.1875 0.5 0.4 true)
    (reverb_set 0.5 0.45 0.18 true)]

/-- Drones & Atmospheres, 10 presets. -/
def drones_atmospheres_presets : List (Preset ℚ) := [
  p "Sci-Fi Drone" (osc .Saw 0.9 0.0 0.5 true) (osc .Saw 0.9 (-1.0) (-0.5) true)
    (osc .Triangle 0.6 1.0 1.0 true)
    0.0 0.0 (filt 600.0 0.211 2000.0 2.5 2.0 0.7 2.5) (env 2.0 1.0 1.0 3.0)
    true (lfo 0.1 .Sine 1.0 800.0) (delay_set 0.3 0.45 0.3 true) (reverb_set 0.9 0.3 0.35 true),
  p "Deep Drone" (osc .Saw 1.0 (-2.0) 0.5 false) (osc .Saw 0.8 (-2.0) (-0.5) false)
    (osc .Sine 0.6 (-3.0) 0.0 false)
    0.0 0.0 (filt 400.0 0.4 1000.0 3.0 2.0 0.8 3.0) (env 2.5 1.5 1.0 3.5)
    true (lfo 0.05 .Sine 0.0 400.0) (delay_set 0.3 0.5 0.3 true) (reverb_set 0.95 0.3 0.4 true),
  p "Ocean Drone" (osc .Triangle 0.8 0.0 0.3 false) (osc .Sine 0.7 (-1.0) (-0.3) false) no_osc
    0.3 0.0 (filt 800.0 0.5 1500.0 3.0 2.5 0.7 3.5) (env 3.0 2.0 1.0 4.0)
    true (lfo 0.07 .Sine 0.0 600.0) (delay_set 0.3 0.5 0.35 true) (reverb_set 0.95 0.3 0.45 true),
  p "Metallic Drone" (osc .Square 0.8 0.0 1.0 false) (osc .Saw 0.7 0.585 (-1.0) false)
    (osc .Square 0.5 1.585 0.0 false)
    0.0 0.0 (filt 1200.0 0.667 2000.0 2.0 2.0 0.8 3.0) (env 1.5 1.0 1.0 3.0)
    true (lfo 0.15 .Sine 0.0 1000.0) (delay_set 0.3 0.5 0.35 true) (reverb_set 0.9 0.35 0.4 true),
  p "Dark Atmosphere" (osc .Saw 0.9 (-1.0) 0.4 false) (osc .Triangle 0.7 (-2.0) (-0.4) false)
    (osc .Sine 0.5 (-1.0) 0.0 false)
    0.1 0.0 (filt 350.0 0.571 1500.0 3.0 2.5 0.6 4.0) (env 2.5 2.0 1.0 4.0)
    true (lfo 0.04 .Triangle 0.0 700.0) (delay_set 0.3 0.55 0.35 true)
    (reverb_set 0.98 0.25 0.45 true),
  p "Space Wind" no_osc no_osc no_osc
    0.8 0.0 (filt 600.0 0.727 3000.0 2.5 2.5 0.7 3.0) (env 2.5 1.5 1.0 3.5)
    true (lfo 0.08 .Sine 0.0 2000.0) (delay_set 0.3 0.5 0.35 true)
    (reverb_set 0.95 0.3 0.45 true),
  p "Tension Drone" (osc .Saw 0.9 0.0 0.0 false) (osc .Saw 0.9 0.585 6.0 false)
    (osc .Square 0.6 1.0 (-6.0) false)
    0.0 0.0 (filt 700.0 0.667 2500.0 2.0 2.0 0.75 3.0) (env 1.8 1.2 1.0 3.0)
    true (lfo 0.06 .Sine 0.0 900.0) (delay_set 0.3 0.5 0.3 true) (reverb_set 0.92 0.3 0.4 true),
  p "Underwater" (osc .Sine 1.0 (-1.0) 0.2 false) (osc .Triangle 0.6 0.0 (-0.2) false) no_osc
    0.1 0.0 (filt 500.0 0.571 1000.0 2.0 2.0 0.7 3.0) (env 2.0 1.5 1.0 3.0)
    true (lfo 0.5 .Sine 0.0 400.0) (delay_set 0.3 0.55 0.4 true) (reverb_set 0.95 0.3 0.45 true),
  p "Cosmic Wash" (osc .Sine 0.9 0.0 0.3 false) (osc .Sine 0.7 1.0 (-0.3) false)
    (osc .Triangle 0.5 2.0 0.5 false)
    0.0 0.0 (filt 2500.0 0.25 2000.0 2.5 2.0 0.8 3.5) (env 2.5 1.5 1.0 4.0)
    true (lfo 0.05 .Sine 0.0 1200.0) (delay_set 0.3 0.55 0.4 true)
    (reverb_set 0.98 0.25 0.5 true),
  p "Cinematic Pad" (osc .Saw 0.9 0.0 0.8 false) (osc .Saw 0.9 (-1.0) (-0.8) false)
    (osc .Sine 0.6 1.0 0.0 false)
    0.0 0.0 (filt 1000.0 0.4 3000.0 2.0 2.0 0.8 3.0) (env 1.8 1.2 1.0 3.5)
    true (lfo 0.06 .Sine 0.0 1500.0) (delay_set 0.3 0.5 0.35 true)
    (reverb_set 0.95 0.3 0.45 true)]

/-- Sound FX & Risers, 6 presets. -/
def sound_fx_risers_presets : List (Preset ℚ) := [
  p "Riser FX" (osc .Saw 0.7 0.0 0.0 false) no_osc no_osc
    0.5 0.0 (filt 200.0 0.727 6000.0 2.0 2.0 1.0 1.0) (env 1.5 0.5 1.0 0.5)
    true (lfo 0.2 .Triangle 0.0 2000.0) (delay_set 0.3 0.4 0.3 true)
    (reverb_set 0.8 0.4 0.3 true),
  p "Down Sweep" (osc .Saw 0.8 1.0 0.0 false) (osc .Square 0.5 0.0 0.0 false) no_osc
    0.2 0.95 (filt 8000.0 0.667 (-6000.0) 0.001 2.0 0.0 1.0) (env 0.001 2.0 0.0 1.0)
    true (lfo 0.3 .Saw 0.0 3000.0) (delay_set 0.3 0.45 0.35 true) (reverb_set 0.85 0.4 0.35 true),
  p "Laser Zap" (osc .Square 1.0 2.0 0.0 false) (osc .Saw 0.5 1.0 0.0 false) no_osc
    0.0 0.9 (filt 6000.0 0.769 (-4000.0) 0.001 0.3 0.0 0.2) (env 0.001 0.35 0.0 0.2)
    true (lfo 30.0 .Saw 0.0 3000.0) (delay_set 0.2 0.5 0.4 true) (reverb_set 0.6 0.4 0.25 true),
  p "Alarm" (osc .Square 1.0 1.0 0.0 false) (osc .Square 0.6 2.0 0.0 false) no_osc
    0.0 0.0 (filt 4000.0 0.571 0.0 0.005 0.0 1.0 0.05) (env 0.005 0.0 1.0 0.05)
    true (lfo 4.0 .Square 0.0 3000.0) (delay_set 0.25 0.3 0.2 true)
    (reverb_set 0.5 0.5 0.15 true),
  p "Wind Noise" no_osc no_osc no_osc
    1.0 0.0 (filt 800.0 0.769 4000.0 1.0 1.0 0.8 1.5) (env 1.0 0.5 1.0 1.5)
    true (lfo 0.3 .Sine 0.0 3000.0) (delay_set 0.3 0.4 0.3 true) (reverb_set 0.9 0.35 0.4 true),
  p "UFO" (osc .Sine 1.0 0.0 0.0 true) (osc .Sine 0.6 1.0 0.0 true) no_osc
    0.0 0.0 (filt 3000.0 0.727 2000.0 0.01 0.5 1.0 0.5) (env 0.05 0.3 1.0 0.5)
    true (lfo 7.0 .Sine 15.0 1500.0) (delay_set 0.3 0.5 0.4 true) (reverb_set 0.8 0.4 0.35 true)]

/-- Percussion & Drums, 4 presets. -/
def percussion_drums_presets : List (Preset ℚ) := [
  p "Synth Kick" (osc .Sine 1.0 (-2.0) 0.0 false) (osc .Sine 0.3 (-1.0) 0.0 false) no_osc
    0.0 0.0 (filt 2000.0 0.4 4000.0 0.001 0.08 0.0 0.08) (env 0.001 0.18 0.0 0.12)
    false no_lfo (delay_set 0.25 0.3 0.0 false) (reverb_set 0.3 0.5 0.05 false),
  p "Synth Tom" (osc .Sine 1.0 (-1.0) 0.0 false) (osc .Triangle 0.4 0.0 0.0 false) no_osc
    0.1 0.0 (filt 1500.0 0.5 3000.0 0.001 0.2 0.0 0.15) (env 0.001 0.25 0.0 0.18)
    false no_lfo (delay_set 0.25 0.3 0.1 false) (reverb_set 0.4 0.5 0.1 true),
  p "Zap Snare" (osc .Triangle 0.7 0.0 0.0 false) no_osc no_osc
    0.8 0.0 (filt 2500.0 0.571 3000.0 0.001 0.15 0.0 0.12) (env 0.001 0.2 0.0 0.15)
    false no_lfo (delay_set 0.2 0.3 0.15 true) (reverb_set 0.5 0.5 0.12 true),
  p "Noise Hat" no_osc no_osc no_osc
    1.0 0.0 (filt 9000.0 0.667 0.0 0.001 0.05 0.0 0.04) (env 0.001 0.06 0.0 0.05)
    false no_lfo (delay_set 0.18 0.25 0.1 true) (reverb_set 0.4 0.5 0.08 true)]
/-- The whole bank, in decimals. -/
def presets : List (Preset ℚ) :=
  bass_presets ++ leads_presets ++ pads_presets ++ keys_organs_presets
    ++ plucks_presets ++ brass_strings_presets ++ bells_mallets_presets ++ arps_sequences_presets
    ++ drones_atmospheres_presets ++ sound_fx_risers_presets ++ percussion_drums_presets

/-- `get_default_presets`: the bank as the device holds it. -/
def get_default_presets : List (Preset UInt32) := presets.map (Preset.map F32.round)

/-- The bank has as many presets as its array type says. -/
theorem get_default_presets_length : get_default_presets.length = 128 := by
  rw [get_default_presets, List.length_map]
  rfl

end PicoDsp.Factory
