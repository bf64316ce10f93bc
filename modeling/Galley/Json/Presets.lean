import Galley.Json.Fields
import Galley.Layout.Presets

/-! # Presets in JSON

Presets are a record of two tables, each of which may be missing. A table is a record of seven
fields, of which only the text height may be missing or null.
-/

namespace Galley.Json

/-- The fields of a table of settings as far as they have been read. -/
structure SettingsDraft where
  textWidth : Option Nat
  indentation : Option Nat
  parIndentation : Option Int
  parSkip : Option Nat
  textHeight : Option (Option Nat)
  fill : Option Bool
  justify : Option Bool

namespace SettingsDraft

/-- A table of which nothing has been read. -/
def empty : SettingsDraft :=
  ⟨none, none, none, none, none, none, none⟩

/-- A field that is read by a given reader and put into its place. -/
def field {α : Type} (key : String) (value : SettingsDraft → Option α) (reader : Reader α)
    (set : SettingsDraft → α → SettingsDraft) : Field SettingsDraft where
  key := key
  isSet := fun draft => (value draft).isSome
  read := fun draft text => do
    let parsed ← reader text
    .ok (parsed.map (set draft))

/-- The fields of a table, in the order in which an array holds them. -/
def fields : List (Field SettingsDraft) :=
  [field (Measure.field .textWidth) textWidth readSize
      fun draft value => { draft with textWidth := some value },
    field (Measure.field .indentation) indentation readSize
      fun draft value => { draft with indentation := some value },
    field (Measure.field .parIndentation) parIndentation readDistance
      fun draft value => { draft with parIndentation := some value },
    field (Measure.field .parSkip) parSkip readSize
      fun draft value => { draft with parSkip := some value },
    field (Measure.field .textHeight) textHeight (readNullable readSize)
      fun draft value => { draft with textHeight := some value },
    field (Switch.field .fill) fill readBool
      fun draft value => { draft with fill := some value },
    field (Switch.field .justify) justify readBool
      fun draft value => { draft with justify := some value }]

/-- The settings of a table that has all fields it needs. -/
def complete (draft : SettingsDraft) : Option Settings := do
  let textWidth ← draft.textWidth
  let indentation ← draft.indentation
  let parIndentation ← draft.parIndentation
  let parSkip ← draft.parSkip
  let fill ← draft.fill
  let justify ← draft.justify
  some { textWidth, indentation, parIndentation, parSkip, fill, justify,
         textHeight := draft.textHeight.getD none }

end SettingsDraft

/-- Read a table of settings. -/
def readSettings : Reader Settings :=
  readComplete SettingsDraft.fields .empty SettingsDraft.complete

/-- The tables of presets as far as they have been read. -/
structure PresetsDraft where
  main : Option Settings
  endnote : Option Settings

namespace PresetsDraft

/-- Presets of which nothing has been read. -/
def empty : PresetsDraft :=
  ⟨none, none⟩

/-- The tables of presets, in the order in which an array holds them. -/
def fields : List (Field PresetsDraft) :=
  [{ key := Preset.name .main
     isSet := fun draft => draft.main.isSome
     read := fun draft text => do
       let parsed ← readSettings text
       .ok (parsed.map fun settings => { draft with main := some settings }) },
    { key := Preset.name .endnote
      isSet := fun draft => draft.endnote.isSome
      read := fun draft text => do
        let parsed ← readSettings text
        .ok (parsed.map fun settings => { draft with endnote := some settings }) }]

/-- The presets, with the default settings in place of a missing table. -/
def complete (draft : PresetsDraft) : Presets where
  main := draft.main.getD Presets.default.main
  endnote := draft.endnote.getD Presets.default.endnote

end PresetsDraft

/-- Read presets. -/
def readPresets : Reader Presets :=
  readComplete PresetsDraft.fields .empty fun draft => some draft.complete

/-- The presets that a JSON text holds. -/
def presetsOfText (text : List Char) : Except Fault Presets :=
  readWhole readPresets text

/-- The settings that a JSON text holds. -/
def settingsOfText (text : List Char) : Except Fault Settings :=
  readWhole readSettings text

end Galley.Json
