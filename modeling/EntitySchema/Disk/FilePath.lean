/-! Slash-separated paths. Their components leave out empty segments and those that
are a dot, unless a dot comes first in a relative path; what is cut out of a path
keeps its spelling. -/
namespace EntitySchema.FilePath

/-- A path as its segments. Absolute paths begin with an empty one. -/
def segments (path : String) : List (List Char) := path.toList.splitOn '/'

def ofSegments (segments : List (List Char)) : String :=
  String.ofList (List.intercalate ['/'] segments)

def isAbsolute (path : String) : Bool := path.toList.head? == some '/'

/-- Whether a segment behind the first is left out of the components. -/
def isVoid (segment : List Char) : Bool := segment.isEmpty || segment == ['.']

/-- Segments without void ones at the end. -/
def trimEnd (segments : List (List Char)) : List (List Char) :=
  (segments.reverse.dropWhile isVoid).reverse

/-- The first component of a path, which is the root if the path is absolute, and the
remaining segments. -/
def splitFirst (path : String) : Option (List Char) × List (List Char) :=
  match segments path with
  | [] => (none, [])
  | first :: rest =>
    if !first.isEmpty then (some first, rest)
    else if isAbsolute path then (some ['/'], rest)
    else (none, rest)

def components (path : String) : List (List Char) :=
  let (first, rest) := splitFirst path
  first.toList ++ rest.filter (!isVoid ·)

/-- The path without its last component; a path that is empty or the root has none. -/
def parent? (path : String) : Option String :=
  let (first, rest) := splitFirst path
  match first, (trimEnd rest).reverse with
  | none, _ => none
  | some first, [] => if first = ['/'] then none else some ""
  | some first, _ :: front =>
    let front := trimEnd front.reverse
    if first = ['/'] then some (ofSegments (if front.isEmpty then [[], []] else [] :: front))
    else some (ofSegments (first :: front))

/-- The last component, if it is a name. -/
def fileName? (path : String) : Option String :=
  match (components path).getLast? with
  | some last =>
    if last = ['/'] || last = ['.'] || last = ['.', '.'] then none else some (String.ofList last)
  | none => none

/-- The segments behind the given components. -/
def stripComponents : List (List Char) → List (List Char) → Option (List (List Char))
  | [], segments => some segments
  | _ :: _, [] => none
  | base :: bases, segment :: segments =>
    if isVoid segment then stripComponents (base :: bases) segments
    else if segment = base then stripComponents bases segments
    else none

/-- What remains of a path below a base, if the base is a part of it. -/
def strip? (path base : String) : Option String :=
  let (first, rest) := splitFirst path
  match components base with
  | [] =>
    if first = some ['/'] then some (ofSegments ([] :: trimEnd rest))
    else some (ofSegments (first.toList ++ trimEnd rest))
  | root :: bases =>
    if first = some root then
      (stripComponents bases rest).map fun rest =>
        ofSegments (trimEnd (rest.dropWhile isVoid))
    else none

/-- A path as seen from a directory. Absolute paths stay as they are. -/
def join (directory path : String) : String :=
  if isAbsolute path || directory.isEmpty then path
  else if directory.toList.getLast? = some '/' then directory ++ path
  else directory ++ "/" ++ path

end EntitySchema.FilePath
