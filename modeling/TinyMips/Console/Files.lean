import TinyMips.Text.Basic

namespace TinyMips

/-!
# Files

What a command can find out about files: the text of a file, or the reason it
cannot be read, and the reason a file could not be written. A `FileTree` is a
working directory that is known completely, and answers such questions the way a
file system does. Of what lies outside of it only the directories above it are
known to exist.
-/

/-- The reason a file cannot be read or written. -/
inductive FileError where
  /-- There is no such file, or no such directory to put it in. -/
  | notFound
  /-- A part of the path before the last one is a file. -/
  | notDirectory
  /-- The path leads to a directory. -/
  | isDirectory
  /-- The path, or a part of it, has more bytes than a file system takes. -/
  | nameTooLong
  /-- The path is not followed to its end: links lead round, or a directory may not be searched. -/
  | unreachable (reason : String)
  /-- The file does not hold text in UTF-8. -/
  | notText
  /-- Some other reason. -/
  | other (reason : String)
  deriving DecidableEq, Repr

namespace FileError

/-- The wording of a file error. -/
def message : FileError → String
  | notFound => "No such file or directory (os error 2)"
  | notDirectory => "Not a directory (os error 20)"
  | isDirectory => "Is a directory (os error 21)"
  | nameTooLong => "File name too long (os error 36)"
  | notText => "stream did not contain valid UTF-8"
  | unreachable reason | other reason => reason

/-- There is nothing at the path that the error is about. -/
def isAbsence : FileError → Bool
  | notFound | notDirectory | nameTooLong | unreachable _ => true
  | isDirectory | notText | other _ => false

end FileError

/-- What commands can find out about files. -/
structure Host where
  /-- The text of a file. -/
  read : String → Except FileError Text
  /-- The reason a file cannot be written, if there is one. -/
  refusal? : String → Option FileError

/-- There is a file or directory at a path. -/
def Host.exists (host : Host) (path : String) : Bool :=
  match host.read path with
  | .ok _ => true
  | .error error => !error.isAbsence

/-- What a host can say once some paths were read, given what is known about writing. -/
def Host.ofReadings
    (readings : List (String × Except FileError Text))
    (refusal? : Option FileError) :
    Host where
  read path := (readings.lookup path).getD (.error .notFound)
  refusal? _ := refusal?

/-! ## A known working directory -/

/-- The files below a directory, with the parts of their paths and their bytes. -/
structure FileTree where
  files : List (List String × List UInt8)
  deriving DecidableEq, Repr

/-- What a path leads to. -/
inductive FileNode where
  /-- A file of the tree: the parts of its name, and its bytes. -/
  | file (name : List String) (bytes : List UInt8)
  /-- A directory of the tree: the parts of its name. -/
  | directory (name : List String)
  /-- A directory above the tree, of which no member is known. -/
  | outside
  deriving DecidableEq, Repr

namespace FileNode

/-- The directory that holds a node. -/
def parent : FileNode → FileNode
  | file name _ => directory name.dropLast
  | directory (first :: rest) => directory (first :: rest).dropLast
  | directory [] => outside
  | outside => outside

/-- The parts of the name of a member of a directory, if it belongs to the tree. -/
def member? (node : FileNode) (part : String) : Option (List String) :=
  match node with
  | directory name => some (name ++ [part])
  | file .. | outside => none

end FileNode

namespace FileTree

/-- The most bytes of one part of a path. -/
def longestPart : Nat := 255

/-- The most bytes of a path. -/
def longestPath : Nat := 4095

/-- The parts of a path. -/
def parts (path : String) : List String :=
  path.splitOn "/"

/-- The node of the tree that has a name. -/
def node (tree : FileTree) (name : List String) : Except FileError FileNode :=
  match tree.files.lookup name with
  | some bytes => .ok (.file name bytes)
  | none =>
      if tree.files.any fun (file, _) => name.isPrefixOf file then
        .ok (.directory name)
      else
        .error .notFound

/-- What a member of a directory is. -/
def child (tree : FileTree) (directory : FileNode) (part : String) :
    Except FileError FileNode :=
  if longestPart < part.utf8ByteSize then
    .error .nameTooLong
  else
    match directory.member? part with
    | some name => tree.node name
    | none => .error .notFound

/-- Follow one part of a path. -/
def follow (tree : FileTree) (node : FileNode) (part : String) : Except FileError FileNode :=
  match node with
  | .file .. => .error .notDirectory
  | directory =>
      if part = "" || part = "." then .ok directory
      else if part = ".." then .ok directory.parent
      else tree.child directory part

/-- Where a path begins: at the working directory, or above it if it begins with a slash. -/
def start (path : String) : Except FileError FileNode :=
  if path = "" then .error .notFound
  else if longestPath < path.utf8ByteSize then .error .nameTooLong
  else if path.startsWith "/" then .ok .outside
  else .ok (.directory [])

/-- What a path leads to. -/
def find (tree : FileTree) (path : String) : Except FileError FileNode := do
  (parts path).foldlM tree.follow (← start path)

/-- The text of the file at a path. -/
def read (tree : FileTree) (path : String) : Except FileError Text := do
  match ← tree.find path with
  | .directory _ | .outside => .error .isDirectory
  | .file _ bytes =>
      match String.fromUTF8? ⟨bytes.toArray⟩ with
      | some text => .ok text.toList
      | none => .error .notText

/-- A last part of a path by which no file can be created. -/
def isReserved (last : String) : Bool :=
  last = "" || last = "." || last = ".."

/--
The parts of the name that a write to a path would give to its file; no name if
the file would lie outside of the tree. A path that ends in a slash names a
directory, whether or not there is one.
-/
def target (tree : FileTree) (path : String) : Except FileError (Option (List String)) := do
  let start ← start path
  let bare := ((parts path).reverse.dropWhile (· = "")).reverse
  match ← bare.dropLast.foldlM tree.follow start with
  | .file .. => .error .notDirectory
  | directory =>
      let last := (parts path).getLastD ""
      if isReserved last then .error .isDirectory
      match tree.child directory last with
      | .ok (.directory _) => .error .isDirectory
      | .error .nameTooLong => .error .nameTooLong
      | _ => .ok (directory.member? last)

/-- What commands can find out about the files of a tree. -/
def host (tree : FileTree) : Host where
  read := tree.read
  refusal? path :=
    match tree.target path with
    | .ok _ => none
    | .error error => some error

/-- The name and bytes of a file that a write changes, if it changes one. -/
def change? (tree : FileTree) (path : String) (text : Text) : Option (String × Text) :=
  match tree.target path with
  | .error _ | .ok none => none
  | .ok (some name) =>
      if tree.files.lookup name = some text.asString.toUTF8.toList then
        none
      else
        some (String.intercalate "/" name, text)

end FileTree

end TinyMips
