import PrintPath.Profile.Source
import PrintPath.Reading.Load

/-!
# Readers

A reader reads any number of programs, one after the other, with one source of
profiles, one thickness rule and one observer.  Each reading is a pass of its own
and takes the profile of the moment at which it starts; what happens to the source
afterwards, even at the hands of the observer, is not seen before the next reading.
A change to the file that is being read is seen as far as it lies behind what was
fetched.

The observer's state `σ` is kept from one reading to the next.  Since an observer
may change files, the files are a function of it.
-/

namespace PrintPath

/-- Something that a program can be read from. -/
inductive Input where
  /-- Lines in memory. -/
  | lines (lines : List String)
  /-- Bytes, of which there are said to be `total`. -/
  | content (bytes : List UInt8) (total : Nat)
  | file (path : Path)

/-- What programs are read with. -/
structure Reader (σ : Type) where
  source : ProfileSource
  rule : ThicknessRule
  observer : Observer σ

/-- A reading with notes in front of its own. -/
def Reading.precededBy {σ : Type} (reading : Reading σ) (notes : List Note) : Reading σ :=
  { reading with notes := notes.toArray ++ reading.notes }

/-- A reading with the note that a file was read to its end, if it was. -/
def Reading.fromFile {σ : Type} (reading : Reading σ) (path : Path) : Reading σ :=
  match reading.outcome with
  | .completed toolpath =>
    { reading with
      notes := reading.notes.push
        (.fileLoaded path toolpath.layers.size toolpath.extrusion toolpath.minutes) }
  | .cancelled _ _ => reading

namespace Reader

variable {σ : Type}

/-- What a reading that starts now is carried out with. -/
def setup (reader : Reader σ) (files : Files) : Setup :=
  { profile := reader.source.profile files, rule := reader.rule }

/-- Read lines or bytes. -/
def readLines (reader : Reader σ) (files : σ → Files) (lines : List String) (state : σ) :
    Reading σ :=
  (PrintPath.readLines (reader.setup (files state)) reader.observer state lines).precededBy
    (reader.source.snapshotNotes (files state))

/-- Read bytes, of which there are said to be `total`. -/
def readContent (reader : Reader σ) (files : σ → Files) (bytes : List UInt8) (total : Nat)
    (state : σ) : Reading σ :=
  (PrintPath.readContent (reader.setup (files state)) reader.observer state bytes total).precededBy
    (reader.source.snapshotNotes (files state))

/-- Read a file.  The observer may change it while it is read; of a file that is gone
nothing more is to come. -/
def readFile (reader : Reader σ) (files : σ → Files) (path : Path) (state : σ) :
    Reading σ :=
  ((PrintPath.readFile (reader.setup (files state)) reader.observer
    (fun state => ((files state).content? path).getD .empty) state).precededBy
    (reader.source.snapshotNotes (files state))).fromFile path

/-- Read a program.  A path that leads to no regular file gives the toolpath of a
print that was never read. -/
def read (reader : Reader σ) (files : σ → Files) (input : Input) (state : σ) : Reading σ :=
  match input with
  | .lines lines => reader.readLines files lines state
  | .content bytes total => reader.readContent files bytes total state
  | .file path =>
    if (files state).isFile path then reader.readFile files path state
    else ⟨.completed .empty, state, #[.fileMissing path]⟩

end Reader
end PrintPath
