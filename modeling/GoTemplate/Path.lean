import GoTemplate.Text.Basic

/-!
Paths of files: names separated by slashes.
-/

namespace GoTemplate.Path

/-- The number of bytes that a path may have. -/
def maxSize : Nat := 4095

/-- The number of bytes that a name in a path may have. -/
def maxNameSize : Nat := 255

/-- Whether a piece between slashes names nothing: it is empty or a single point. -/
def isIdle (piece : Text) : Bool := piece == [] || piece == ['.']

/-- What stands before the names of a path, and the rest: a slash for a path from the root, and a
point for a path that starts with the present directory. -/
def splitLead : Text → Text × Text
  | '/' :: t => (['/'], t)
  | ['.'] => (['.'], [])
  | '.' :: '/' :: t => (['.'], '/' :: t)
  | t => ([], t)

/-- The pieces without those at the end that name nothing. -/
def trimPieces (pieces : List Text) : List Text := (pieces.reverse.dropWhile isIdle).reverse

/-- The directory part of a path: all before its last name, as it is written there. A path with
one name has none. -/
def directory? (path : Text) : Option Text :=
  let (lead, names) := splitLead path
  match trimPieces (Text.splitAt '/' names) with
  | [] => none
  | pieces =>
    let directory := lead ++ ['/'].intercalate (trimPieces pieces.dropLast)
    if directory = [] then none else some directory

/-- Whether a path starts at the root of all directories. -/
def isAbsolute (path : Text) : Bool := ['/'].isPrefixOf path

/-- Whether a path ends with a slash, so that only a directory can be meant. -/
def isClosed (path : Text) : Bool := ['/'].isSuffixOf path

/-- Whether a name stands for the present or for the parent directory. -/
def isDots (name : Text) : Bool := name == ['.'] || name == ['.', '.']

/-- The names in a path, in order. Points for present and parent directories are kept. -/
def names (path : Text) : List Text := (Text.splitAt '/' path).filter (· ≠ [])

end GoTemplate.Path
