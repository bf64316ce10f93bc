import Galley.Layout.Requirement

/-! # Presets

Presets are the settings that the main text and the endnotes start with. They have to keep the
bounds that the markup commands keep for the same measures, except that a paragraph indentation
may be negative.
-/

namespace Galley

/-- The two streams of a document that have settings of their own. -/
inductive Preset where
  | main
  | endnote
deriving DecidableEq

/-- A measure of a preset that breaks its requirement. -/
structure InvalidPreset where
  preset : Preset
  measure : Measure
  value : Nat
deriving DecidableEq

/-- The name of a stream in presets. -/
def Preset.name : Preset → String
  | main => "main"
  | endnote => "endnote"

/-- The name of a measure in presets. -/
def Measure.field : Measure → String
  | indentation => "indentation"
  | parIndentation => "par_indentation"
  | parSkip => "par_skip"
  | textWidth => "text_width"
  | textHeight => "text_height"

/-- The name of a switch in presets. -/
def Switch.field : Switch → String
  | fill => "fill"
  | justify => "justify"

/-- The problem in words. -/
def InvalidPreset.message (invalid : InvalidPreset) : String :=
  "`" ++ invalid.measure.field ++ "` in the `" ++ invalid.preset.name ++ "` preset must be " ++
    invalid.measure.requirement.describe ++ ", but it is " ++ toString invalid.value

/-- The measures of these settings that have to be positive, in the order of checking. -/
def Settings.positiveMeasures (settings : Settings) : List (Measure × Nat) :=
  (.textWidth, settings.textWidth) :: settings.textHeight.toList.map (.textHeight, ·)

/-- The first measure of the settings that breaks its requirement. -/
def Settings.invalid? (settings : Settings) : Option (Measure × Nat) :=
  settings.positiveMeasures.find? fun (measure, value) => !measure.requirement.allows value

/-- The settings that a document starts with. -/
structure Presets where
  main : Settings
  endnote : Settings
deriving DecidableEq

namespace Presets

/-- The presets used when none are given. -/
def default : Presets :=
  ⟨.main, .endnote⟩

/-- The settings of one of the two streams. -/
def settings (presets : Presets) : Preset → Settings
  | .main => presets.main
  | .endnote => presets.endnote

/-- The first problem of the presets, those of the main text before those of the endnotes. -/
def invalid? (presets : Presets) : Option InvalidPreset :=
  [Preset.main, Preset.endnote].findSome? fun preset =>
    (presets.settings preset).invalid?.map fun (measure, value) => ⟨preset, measure, value⟩

/-- Presets with which a document can be formatted. -/
def Valid (presets : Presets) : Prop :=
  ∀ preset, 0 < (presets.settings preset).textWidth ∧
    ∀ height ∈ (presets.settings preset).textHeight, 0 < height

/-- The check of presets finds a problem unless they are valid. -/
theorem invalid?_eq_none_iff {presets : Presets} : presets.invalid? = none ↔ presets.Valid := by
  have stream (settings : Settings) : settings.invalid? = none ↔
      0 < settings.textWidth ∧ ∀ height ∈ settings.textHeight, 0 < height := by
    cases height : settings.textHeight <;>
      simp [Settings.invalid?, Settings.positiveMeasures, height, Measure.requirement,
        Requirement.allows, Nat.pos_iff_ne_zero]
  simp only [invalid?, List.findSome?_cons, Valid]
  constructor
  · intro none preset
    rw [← stream]
    cases main : (presets.settings .main).invalid? <;>
      cases endnote : (presets.settings .endnote).invalid? <;>
        cases preset <;> simp_all
  · intro valid
    simp [(stream _).mpr (valid .main), (stream _).mpr (valid .endnote)]

end Presets
end Galley
