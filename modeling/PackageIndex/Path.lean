import PackageIndex.Text.Basic

/-!
# Paths

Paths are texts, and only two things are done with them. A name is put behind
a directory, and the name of a file is told from the directory it stands in.

## Main definitions

* `Path.append`: A relative path behind a directory.
* `Path.parts`: The parts of a path that lead somewhere.
* `Path.fileName?`: The name of the file a path leads to.
* `Path.directory`: The directory that file stands in.
-/

namespace PackageIndex

namespace Path

/-- A relative path behind a directory, with one slash between them, but none
    behind a slash or behind nothing. -/
def append (directory name : Text) : Text :=
  if directory.isEmpty || directory.getLast? = some '/' then directory ++ name
  else directory ++ ['/'] ++ name

/-- Whether a piece of a path leads nowhere: the one between doubled slashes
    and a single dot. -/
def leadsNowhere (piece : Text) : Bool := piece.isEmpty || piece = ['.']

/-- The parts of a path, without the pieces that lead nowhere. -/
def parts (path : Text) : List Text := (Text.pieces '/' path).filter (!leadsNowhere ·)

/-- The pieces of a path up to the last one that leads somewhere. -/
def upToLast (pieces : List Text) : List Text :=
  (pieces.reverse.dropWhile leadsNowhere).reverse

/-- Whether a path starts at the root. -/
def isAbsolute (path : Text) : Bool := path.head? = some '/'

/-- The name of the file a path leads to. A path that is all slashes and dots,
    or ends by leading upwards, has none. -/
def fileName? (path : Text) : Option Text :=
  match (parts path).getLast? with
  | some name => if name = ['.', '.'] then none else some name
  | none => none

/-- The directory in which the file stands that a path leads to. It is what is
    written in front of the name, up to where that leads somewhere. -/
def directory (path : Text) : Text :=
  let front := Text.join ['/'] (upToLast (upToLast (Text.pieces '/' path)).dropLast)
  if front.isEmpty then if isAbsolute path then ['/'] else ['.'] else front

end Path

end PackageIndex
