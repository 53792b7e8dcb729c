import DocTree.Keyed
import DocTree.Path

/-! Files: what is found at a path, and a `Folder` that holds files and further folders of its own.
A path leads to a place step by step; every place on the way has to be a folder. Files hold bytes,
which may encode a text. -/

namespace DocTree

/-- Why a file cannot be read, written or removed. -/
inductive FileFault where
  /-- there is nothing at the path -/
  | missing
  /-- a place on the way is a file -/
  | notFolder
  /-- there is a folder at the path -/
  | isFolder
  /-- a folder is to be made where a file is -/
  | isFile
  /-- a name or the whole path is longer than names and paths can be -/
  | tooLong
  /-- the path has a NUL character, at which it would end -/
  | cutShort
  /-- the bytes of a file encode no text -/
  | notText
deriving DecidableEq, Repr

/-- What is found at paths: the text of a file, or why there is none. -/
structure Files where
  text : Path → Except FileFault String

namespace Files

/-- Whether a path leads to a file or a folder. -/
def has (files : Files) (p : Path) : Except FileFault Bool :=
  match files.text p with
  | .ok _ => .ok true
  | .error .isFolder => .ok true
  | .error .notText => .ok true
  | .error .tooLong => .error .tooLong
  | .error _ => .ok false

/-- The text of a file, with all line ends as line feeds. -/
def read (files : Files) (p : Path) : Except FileFault String :=
  (files.text p).map fun s => String.ofList (Text.foldLineEnds s.toList)

/-- The text that the bytes of a file encode in UTF-8. -/
def decode (bytes : ByteArray) : Except FileFault String :=
  match String.fromUTF8? bytes with
  | some s => .ok s
  | none => .error .notText

theorem decode_toUTF8 (s : String) : decode s.toUTF8 = .ok s := by
  have valid : String.fromUTF8? s.toUTF8 = some s := dif_pos s.isValidUTF8
  rw [decode, valid]

/-- Files with their bytes under the texts of their paths, and nothing else. -/
def ofTable (table : List (String × ByteArray)) : Files where
  text p := match Keyed.get? p.text table with
    | some bytes => decode bytes
    | none => .error .missing

end Files

/-- A folder that holds files and folders. Each is kept under its place: a path that has two dots
only at its start, where they lead to the folders above. -/
structure Folder where
  files : List (Path × ByteArray) := []
  folders : List Path := []

/-- What a change leaves behind: the folder, and what went wrong. What was done before a fault
stays. -/
structure Change where
  folder : Folder
  fault : Option FileFault

/-- Goes on with a change unless something went wrong. -/
def Change.andThen (c : Change) (next : Folder → Change) : Change :=
  match c.fault with
  | none => next c.folder
  | some _ => c

namespace Folder

/-- The greatest length of a name in bytes. -/
def nameLimit : Nat := 255

/-- The greatest length of a path in bytes. -/
def pathLimit : Nat := 4095

/-- Whether a place is a folder. The folder itself and those above it always are. -/
def isFolder (f : Folder) (place : Path) : Bool :=
  place.segments.all (· == "..") || f.folders.contains place

/-- The place that one segment leads to from a folder. Two dots lead to the folder above, and from
a root to the root. -/
def enter (place : Path) (segment : String) : Path :=
  if segment != ".." then { place with segments := place.segments ++ [segment] }
  else if place.segments.all (· == "..") then
    if place.root == "" then { place with segments := place.segments ++ [".."] } else place
  else place.parent

/-- The place that segments lead to from a place. -/
def settle (f : Folder) (place : Path) : List String → Except FileFault Path
  | [] => .ok place
  | s :: rest =>
    if !f.isFolder place then
      .error (if Keyed.has place f.files then .notFolder else .missing)
    else if s.utf8ByteSize > nameLimit then .error .tooLong
    else settle f (enter place s) rest

/-- The place that a path leads to. -/
def place (f : Folder) (p : Path) : Except FileFault Path :=
  if p.text.toList.contains '\x00' then .error .cutShort
  else if p.text.utf8ByteSize > pathLimit then .error .tooLong
  else f.settle { root := if p.root == "" then "" else "/" } p.segments

/-- The text of the file at a path. -/
def text (f : Folder) (p : Path) : Except FileFault String := do
  let place ← f.place p
  match Keyed.get? place f.files with
  | some bytes => Files.decode bytes
  | none => .error (if f.isFolder place then .isFolder else .missing)

/-- What is found in the folder. -/
def view (f : Folder) : Files := ⟨f.text⟩

/-- Makes sure that there is a folder at a place. -/
def makeFolder (f : Folder) (place : Path) : Change :=
  if f.isFolder place then ⟨f, none⟩
  else if Keyed.has place f.files then ⟨f, some .isFile⟩
  else ⟨{ f with folders := f.folders ++ [place] }, none⟩

/-- Goes on at the place that a path leads to, if it leads anywhere. -/
def changeAt (f : Folder) (p : Path) (change : Path → Change) : Change :=
  match f.place p with
  | .ok place => change place
  | .error fault => ⟨f, some fault⟩

/-- Makes sure that there is a folder at a path, and before it at every path that starts it and
leads nowhere yet. -/
def makeFolders (f : Folder) (p : Path) : Change :=
  match f.place p with
  | .ok place => f.makeFolder place
  | .error .missing =>
    if h : p.segments = [] then ⟨f, some .missing⟩
    else
      have : p.parent.segments.length < p.segments.length := by
        have := List.length_pos_iff.mpr h
        simp only [Path.parent, List.length_dropLast]
        omega
      (makeFolders f p.parent).andThen fun f => f.changeAt p f.makeFolder
  | .error fault => ⟨f, some fault⟩
termination_by p.segments.length

/-- Writes a file, once the folder that it lies in is there. -/
def write (f : Folder) (p : Path) (bytes : ByteArray) : Change :=
  (f.makeFolders p.parent).andThen fun f => f.changeAt p fun place =>
    if f.isFolder place then ⟨f, some .isFolder⟩
    else ⟨{ f with files := Keyed.put place bytes f.files }, none⟩

/-- Removes a file. Folders stay. -/
def remove (f : Folder) (p : Path) : Change :=
  f.changeAt p fun place =>
    if f.isFolder place then ⟨f, some .isFolder⟩
    else if Keyed.has place f.files then ⟨{ f with files := Keyed.erase place f.files }, none⟩
    else ⟨f, some .missing⟩

end Folder

end DocTree
