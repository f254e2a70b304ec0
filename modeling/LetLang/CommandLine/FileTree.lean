/-!
# Reading a source file

**Input.** A tree of files, and a path that may lead to one of them.

**Algorithm.** The path is followed name by name from the root of the tree.  An empty name and a
single dot stay in a directory, and two dots go back to the one around it.  What lies around the
root is not known, so every name there is missing.  A name that is longer than a directory can
hold is refused where it is looked up, and a path that is longer than the system takes is refused
as a whole.

**Result.** `FileTree.read`, the bytes of the file, or the reason why there are none.
-/

namespace LetLang
namespace CommandLine

/-- Why a source cannot be read. -/
inductive ReadFailure
  | missing
  | isDirectory
  | notDirectory
  | nameTooLong
  | notText
  deriving DecidableEq, Repr

/-- A failure in words. -/
def ReadFailure.message : ReadFailure → String
  | missing => "No such file or directory (os error 2)"
  | isDirectory => "Is a directory (os error 21)"
  | notDirectory => "Not a directory (os error 20)"
  | nameTooLong => "File name too long (os error 36)"
  | notText => "stream did not contain valid UTF-8"

/-- The text that some bytes are the UTF-8 form of. -/
def decodeText (bytes : ByteArray) : Except ReadFailure String :=
  match String.fromUTF8? bytes with
  | some text => .ok text
  | none => .error .notText

/-- Files by the names that lead to them from the root. -/
structure FileTree where
  files : List (List String × ByteArray)

namespace FileTree

/-- Whether a name stays in a directory. -/
def staysIn (name : String) : Bool :=
  name = "" || name = "."

/-- The tree of some files, each with its path.  Of two files with one path the later stays. -/
def ofFiles (files : List (String × ByteArray)) : FileTree :=
  { files := files.reverse.map fun (path, bytes) =>
      ((path.splitOn "/").filter (!staysIn ·), bytes) }

/-- The bytes of the file at a place. -/
def file? (tree : FileTree) (place : List String) : Option ByteArray :=
  tree.files.lookup place

/-- Whether a place is the root or a directory around some file. -/
def isDirectory (tree : FileTree) (place : List String) : Bool :=
  place.isEmpty || tree.files.any fun (names, _) =>
    place.isPrefixOf names && place.length < names.length

/-- Why a name is not found that no file and no directory has. -/
def notFound (name : String) : ReadFailure :=
  if 255 < name.utf8ByteSize then .nameTooLong else .missing

/-- Follow names from a place. -/
def follow (tree : FileTree) : List String → List String → Except ReadFailure ByteArray
  | place, [] =>
      match tree.file? place with
      | some bytes => .ok bytes
      | none => .error .isDirectory
  | place, name :: names =>
      if (tree.file? place).isSome then
        .error .notDirectory
      else if staysIn name then
        tree.follow place names
      else if name = ".." then
        if place.isEmpty then outside names
        else tree.follow place.dropLast names
      else if (tree.file? (place ++ [name])).isSome || tree.isDirectory (place ++ [name]) then
        tree.follow (place ++ [name]) names
      else
        .error (notFound name)
where
  /-- Follow names from a directory around the root. -/
  outside (names : List String) : Except ReadFailure ByteArray :=
    match names.find? fun name => !staysIn name && name ≠ ".." with
    | none => .error .isDirectory
    | some name => .error (notFound name)

/-- The bytes of the file that a path leads to. -/
def read (tree : FileTree) (path : String) : Except ReadFailure ByteArray :=
  if path = "" then .error .missing
  else if 4095 < path.utf8ByteSize then .error .nameTooLong
  else if path.startsWith "/" then follow.outside (path.splitOn "/")
  else tree.follow [] (path.splitOn "/")

end FileTree

end CommandLine
end LetLang
