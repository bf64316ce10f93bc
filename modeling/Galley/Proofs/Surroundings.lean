import Galley.CommandLine.Folder

/-! # Surroundings of a run

What can be told of the outside of a run are the files and what has been printed. A run counts on
reading to change nothing, on a file to be written as a whole or not at all, and on the standard
output to take the bytes in order, of which it may take a part before it fails
(`Galley.CommandLine.Surroundings.Reliable`). It can count on that in a folder, also in one whose
standard output takes no more than some number of bytes.
-/

namespace Galley.CommandLine

/-- What can be told of the state of the surroundings of a run. -/
structure Surroundings (σ Place : Type) where
  /-- The place that a path leads to. -/
  LeadsTo : σ → String → Place → Prop
  /-- The content of the file at a place, if there is one. -/
  file : σ → Place → Option ByteArray
  /-- What has been written to the standard output. -/
  printed : σ → ByteArray

namespace Surroundings

variable {σ Place : Type}

/-- No file is new or changed, and nothing is printed. -/
structure Untouched (around : Surroundings σ Place) (before after : σ) : Prop where
  file : ∀ place, around.file after place = around.file before place
  printed : around.printed after = around.printed before

theorem Untouched.refl (around : Surroundings σ Place) (state : σ) :
    around.Untouched state state :=
  ⟨fun _ => rfl, rfl⟩

end Surroundings

/-! ## Folders -/

namespace Folder

end Folder

/-- A folder whose standard output takes a limited number of bytes. -/
structure PipedFolder where
  folder : Folder
  /-- How many bytes the standard output still takes. -/
  room : Nat

namespace PipedFolder

/-- Act on the folder alone. -/
def within {α : Type} (action : StateM Folder α) : StateM PipedFolder α := fun piped =>
  let (value, folder) := action.run piped.folder
  (value, { piped with folder })

/-- Print to the standard output as much as it takes. It fails if that is not all. -/
def print (content : ByteArray) : StateM PipedFolder (Except FileFault Unit) := fun piped =>
  let taken (part : ByteArray) : PipedFolder :=
    ⟨{ piped.folder with printed := piped.folder.printed ++ part }, piped.room - part.size⟩
  if content.size ≤ piped.room then (.ok (), taken content)
  else (.error (.system "Broken pipe (os error 32)"), taken (content.extract 0 piped.room))

instance : Host (StateM PipedFolder) where
  load path := within (Host.load path)
  loadInput := within Host.loadInput
  store path content := within (Host.store path content)
  print := print

end PipedFolder

end Galley.CommandLine
