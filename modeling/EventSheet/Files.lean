/-!
Paths and files.

A path is a text whose parts stand between slashes. Files are held as a tree of folders, so that
what is read from them is a function of the tree. An entry is found by its name, whether or not its
folder can be listed; a listing goes through the entries in an order of its own and may break off.

Names of entries are bytes, while paths that a user writes are text. What happens while files are
read is not modelled: nobody changes them, and a path is never too long.
-/

set_option autoImplicit false

namespace EventSheet

/-! ## Paths -/

namespace Path

/-- The parts of a text between slashes, empty parts included. -/
def split : List Char → List (List Char)
  | [] => [[]]
  | c :: cs =>
    if c = '/' then [] :: split cs
    else
      match split cs with
      | [] => [[c]]
      | part :: parts => (c :: part) :: parts

/-- The parts of a path between slashes, empty parts included. -/
def parts (p : String) : List String := (split p.toList).map String.ofList

/-- Whether a path starts at the root. -/
def isAbsolute (p : String) : Bool := p.toList.head? = some '/'

/-- A path inside another one. An absolute path stays as it is, and the empty path adds nothing. -/
def join (base inner : String) : String :=
  if isAbsolute inner || base = "" then inner
  else if base.toList.getLast? = some '/' then base ++ inner
  else base ++ "/" ++ inner

/-- A path, written backwards, without slashes and single points at its end. A path of slashes is
the root. -/
def trimReversed : List Char → List Char
  | '/' :: rest => if rest = [] then ['/'] else trimReversed rest
  | '.' :: '/' :: rest => trimReversed ('/' :: rest)
  | cs => cs

/-- The path without its last part. The empty path and the root have none. -/
def parent? (p : String) : Option String :=
  let cs := trimReversed p.toList.reverse
  if cs = [] || cs = ['/'] then none
  else some (String.ofList (trimReversed (cs.dropWhile (· ≠ '/'))).reverse)

/-- The name at the end of a path, without which the path leads up or to the root. -/
def fileName? (p : String) : Option String :=
  let name := String.ofList ((trimReversed p.toList.reverse).takeWhile (· ≠ '/')).reverse
  if name ∈ ["", ".", ".."] then none else some name

/-- What stands behind the last point of a name, unless the name starts with that point. -/
def behindPoint {α : Type} [DecidableEq α] (point : α) (name : List α) : Option (List α) :=
  let reversed := name.reverse
  let behind := reversed.takeWhile (· ≠ point)
  match reversed.drop behind.length with
  | [] => none
  | [_] => none
  | _ => some behind.reverse

/-- The extension of a name. -/
def extension? (name : String) : Option String :=
  (behindPoint '.' name.toList).map String.ofList

end Path

/-! ## Names -/

/-- The name of an entry of a folder: bytes, which need not be those of a text. -/
structure FileName where
  /-- The bytes. -/
  bytes : List UInt8
deriving DecidableEq, Repr, Inhabited

namespace FileName

/-- The name that a text is. -/
def ofText (s : String) : FileName := ⟨s.toUTF8.data.toList⟩

/-- The text that a name is, if it is one. -/
def text? (n : FileName) : Option String := String.fromUTF8? n.bytes.toByteArray

/-- The extension of a name. -/
def extension? (n : FileName) : Option FileName :=
  (Path.behindPoint '.'.toUInt8 n.bytes).map FileName.mk

/-- Names are ordered by their bytes, which orders texts by code point. -/
instance : LT FileName := ⟨fun a b => a.bytes < b.bytes⟩

instance (a b : FileName) : Decidable (a < b) :=
  inferInstanceAs (Decidable (a.bytes < b.bytes))

/-! ### Names as they are shown

Whatever a name is, people see a text. Bytes that are not part of a character are shown as one
replacement character for each stretch that begins a character and does not end it. -/

/-- What stands for bytes that make no character. -/
def replacement : Char := '\ufffd'

/-- A character that its first bytes have begun. -/
structure Begun where
  /-- The number of bytes that it lacks. -/
  lacking : Nat
  /-- The least byte that may come next. -/
  least : Nat
  /-- The greatest byte that may come next. -/
  greatest : Nat
  /-- What the bytes so far amount to. -/
  value : Nat

/-- The character that a byte begins. The bounds on the second byte leave out what fewer bytes can
say, surrogates, and what lies behind the last code point. -/
def Begun.ofFirst? (byte : Nat) : Option Begun :=
  if 0xC2 ≤ byte ∧ byte ≤ 0xDF then some ⟨1, 0x80, 0xBF, byte - 0xC0⟩
  else if 0xE0 ≤ byte ∧ byte ≤ 0xEF then
    some ⟨2, if byte = 0xE0 then 0xA0 else 0x80, if byte = 0xED then 0x9F else 0xBF, byte - 0xE0⟩
  else if 0xF0 ≤ byte ∧ byte ≤ 0xF4 then
    some ⟨3, if byte = 0xF0 then 0x90 else 0x80, if byte = 0xF4 then 0x8F else 0xBF, byte - 0xF0⟩
  else none

/-- What a byte shows where no character has begun, and the character that it begins. -/
def showFirst (byte : Nat) : List Char × Option Begun :=
  if byte < 0x80 then ([Char.ofNat byte], none)
  else
    match Begun.ofFirst? byte with
    | some begun => ([], some begun)
    | none => ([replacement], none)

/-- What a byte shows, and the character that has begun behind it. -/
def showByte (begun : Option Begun) (byte : Nat) : List Char × Option Begun :=
  match begun with
  | none => showFirst byte
  | some c =>
    if c.least ≤ byte ∧ byte ≤ c.greatest then
      let value := c.value * 0x40 + (byte - 0x80)
      if c.lacking = 1 then ([Char.ofNat value], none)
      else ([], some ⟨c.lacking - 1, 0x80, 0xBF, value⟩)
    else
      let (shown, begun) := showFirst byte
      (replacement :: shown, begun)

/-- What bytes show behind those that have begun a character. -/
def showBytes : Option Begun → List UInt8 → List Char
  | none, [] => []
  | some _, [] => [replacement]
  | begun, byte :: bytes =>
    let (shown, begun) := showByte begun byte.toNat
    shown ++ showBytes begun bytes

/-- A name as it is shown to people. -/
def shown (n : FileName) : String :=
  n.text?.getD (String.ofList (showBytes none n.bytes))

end FileName

/-- Whether names come before other names, or are the same: the first that differ decide, and
nothing comes before something. -/
def Path.notAfter : List FileName → List FileName → Bool
  | [], _ => true
  | _ :: _, [] => false
  | a :: as, b :: bs => a < b || (a = b && notAfter as bs)

/-! ## Faults -/

/-- Why there is nothing to read at a path. -/
inductive FileFault where
  /-- Nothing is there. -/
  | missing
  /-- The path goes through a file. -/
  | throughFile
  /-- A folder is there. -/
  | isFolder
  /-- The bytes of the file are no text. -/
  | notText
  /-- The system refuses, in its own words. -/
  | refused (words : String)
deriving DecidableEq, Repr, Inhabited

/-- The wording of a fault. -/
def FileFault.message : FileFault → String
  | .missing => "No such file or directory (os error 2)"
  | .throughFile => "Not a directory (os error 20)"
  | .isFolder => "Is a directory (os error 21)"
  | .notText => "stream did not contain valid UTF-8"
  | .refused words => words

/-! ## Trees of files -/

/-- How far a folder is listed. -/
inductive Listing where
  /-- To its end. -/
  | complete
  /-- Not at all. -/
  | refused (fault : FileFault)
  /-- Up to some number of entries. -/
  | brokenOff (count : Nat) (fault : FileFault)
deriving DecidableEq, Repr, Inhabited

/-- A file or a folder. -/
inductive FileTree where
  /-- A file with its text, or why it has none. -/
  | file (content : Except FileFault String)
  /-- A folder with its entries, by name, in the order of its listing. -/
  | branch (listing : Listing) (entries : List (FileName × FileTree))
deriving Inhabited

namespace FileTree

/-- A folder that is listed to its end, with texts for names. -/
def folder (entries : List (String × FileTree)) : FileTree :=
  .branch .complete (entries.map fun e => (.ofText e.1, e.2))

/-- The folder without entries. -/
def nothing : FileTree := .branch .complete []

/-- The entries of a folder; a file has none. -/
def entries : FileTree → List (FileName × FileTree)
  | .file _ => []
  | .branch _ entries => entries

/-- How far a tree is listed; a file has nothing to list. -/
def listing : FileTree → Listing
  | .file _ => .complete
  | .branch listing _ => listing

/-- A folder with an entry in place of the one of that name. -/
def withEntry (tree : FileTree) (name : FileName) (entry : FileTree) : FileTree :=
  .branch tree.listing ((tree.entries.filter fun e => e.1 ≠ name) ++ [(name, entry)])

/-- What an entry of a folder is, an empty folder if there is none. -/
def entryOrNothing (tree : FileTree) (name : FileName) : FileTree :=
  (tree.entries.lookup name).getD nothing

/-- Puts a tree at a place below a tree, in place of what is there. What is missing on the way are
folders. -/
def put (tree : FileTree) : List FileName → FileTree → FileTree
  | [], new => new
  | name :: rest, new => tree.withEntry name ((tree.entryOrNothing name).put rest new)

/-- Makes a folder at a place below a tree, unless there is one. -/
def putFolder (tree : FileTree) : List FileName → FileTree
  | [] =>
    match tree with
    | .branch _ _ => tree
    | .file _ => nothing
  | name :: rest => tree.withEntry name ((tree.entryOrNothing name).putFolder rest)

end FileTree

/-! ## All files -/

/-- All files, and the folder that relative paths start at. -/
structure Files where
  /-- The tree below the root. -/
  root : FileTree
  /-- The names that lead from the root to the working folder. -/
  workingFolder : List String
deriving Inhabited

namespace Files

/-- The names on the way to a path. -/
def names (fs : Files) (path : String) : List String :=
  (if Path.isAbsolute path then [] else fs.workingFolder) ++ Path.parts path

/-! ## Reading -/

/-- Follows names down a tree. `above` holds the folders that were passed, the nearest first. -/
def follow (above : List FileTree) (tree : FileTree) : List String → Except FileFault FileTree
  | [] => .ok tree
  | name :: rest =>
    match tree with
    | .file _ => .error .throughFile
    | .branch _ entries =>
      if name = "" || name = "." then follow above tree rest
      else if name = ".." then
        match above with
        | [] => follow [] tree rest
        | t :: ts => follow ts t rest
      else
        match entries.lookup (.ofText name) with
        | some t => follow (tree :: above) t rest
        | none => .error .missing

/-- What is at a path. -/
def find (fs : Files) (path : String) : Except FileFault FileTree :=
  if path = "" then .error .missing
  else follow [] fs.root (fs.names path)

/-- Whether something is at a path. -/
def contains (fs : Files) (path : String) : Bool :=
  match fs.find path with
  | .ok _ => true
  | .error _ => false

/-- Whether a folder is at a path. -/
def isFolder (fs : Files) (path : String) : Bool :=
  match fs.find path with
  | .ok (.branch _ _) => true
  | _ => false

/-- Whether a file is at a path. -/
def isFile (fs : Files) (path : String) : Bool :=
  match fs.find path with
  | .ok (.file _) => true
  | _ => false

/-- The text of the file at a path. -/
def read (fs : Files) (path : String) : Except FileFault String :=
  match fs.find path with
  | .error fault => .error fault
  | .ok (.branch _ _) => .error .isFolder
  | .ok (.file content) => content

/-! ## Filling -/

/-- Puts a tree where names lead to from a place below the root. The folders on the way are made. -/
def putAlong (root : FileTree) (place : List FileName) : List String → FileTree → FileTree
  | [], new => root.put place new
  | name :: rest, new =>
    if name = "" || name = "." then putAlong root place rest new
    else if name = ".." then putAlong root place.dropLast rest new
    else
      let place := place ++ [.ofText name]
      if rest = [] then root.put place new else putAlong (root.putFolder place) place rest new

/-- Puts a tree at a path. -/
def put (fs : Files) (path : String) (new : FileTree) : Files :=
  { fs with root := putAlong fs.root [] (fs.names path) new }

end Files

end EventSheet
