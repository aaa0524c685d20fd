/-!
# Paths — joining and normalising slash-separated paths

    Normalising drops empty segments and `.`, and lets `..` cancel the segment
    before it; at the root `..` means nothing, and at the start of a relative
    path it stays.
-/

namespace Subnet.Path

/-- Puts a segment on a stack of segments, the innermost first. -/
def push (absolute : Bool) (stack : List (List Char)) (segment : List Char) : List (List Char) :=
  if segment = [] ∨ segment = ['.'] then stack
  else if segment = ['.', '.'] then
    match stack with
    | [] => if absolute then [] else [segment]
    | top :: below => if top = ['.', '.'] then segment :: stack else below
  else segment :: stack

/-- The normal form of a path that ends in a segment. -/
def normalize (cs : List Char) : List Char :=
  let absolute := cs.head? = some '/'
  let segments := ((cs.splitOn '/').foldl (push absolute) []).reverse
  let body := ['/'].intercalate segments
  if absolute then '/' :: body else if body = [] then ['.'] else body

/-- The normal form of a path and a name below it; below the empty path there is
    the name alone. -/
def join (directory name : String) : String :=
  if directory = "" then String.ofList (normalize name.toList)
  else String.ofList (normalize (directory.toList ++ '/' :: name.toList))

/-- A path seen from a working directory. -/
def resolve (working path : String) : String :=
  if path.toList.head? = some '/' then String.ofList (normalize path.toList)
  else join working path

end Subnet.Path
