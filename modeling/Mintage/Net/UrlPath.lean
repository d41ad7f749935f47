import Mintage.Net.Authority
import Mintage.Text.Pieces

/-!
The path of a locator: segments with a slash in front of each, or text without structure.

* `UrlPath.segments`: the segments of a text, with single and double points carried out.
-/

namespace Mintage.Net

/-- What a locator names at its authority. -/
inductive UrlPath where
  /-- Segments, each with a slash in front; there may be none. -/
  | rooted (segments : List (List Char))
  /-- Text without structure. -/
  | bare (text : List Char)
  deriving DecidableEq

namespace UrlPath

/-- The path as it stands in a URL. -/
def chars : UrlPath → List Char
  | rooted segments => segments.flatMap fun s => '/' :: s
  | bare t => t

/-- A segment with the codes of its points undone. -/
def undot : List Char → List Char
  | '%' :: '2' :: 'e' :: r => '.' :: undot r
  | '%' :: '2' :: 'E' :: r => '.' :: undot r
  | c :: r => c :: undot r
  | [] => []

/-- A letter and a colon, or a bar in its place. -/
def isDrive (s : List Char) : Bool :=
  match s with
  | [a, b] => a.isAlpha && (b == ':' || b == '|')
  | _ => false

/-- The segments with the last one taken back; a drive at the beginning of a file's path
stays. -/
def shorten (k : SchemeKind) (done : List (List Char)) : List (List Char) :=
  match k, done with
  | .file, [d] => if isDrive d then [d] else []
  | _, _ => done.dropLast

/-- Adds a segment to those before it. Two points take one back, and a point stands for
where one is; at the end of a path both leave an empty segment. -/
def addSegment (k : SchemeKind) (done : List (List Char)) (last : Bool) (s : List Char) :
    List (List Char) :=
  if undot s = ['.', '.'] then shorten k done ++ (if last then [[]] else [])
  else if undot s = ['.'] then done ++ (if last then [[]] else [])
  else if k = .file ∧ done.isEmpty ∧ isDrive s then [[s.headD ' ', ':']]
  else done ++ [Percent.encode Percent.path s]

/-- Adds segments one after the other. -/
def addSegments (k : SchemeKind) : List (List Char) → List (List Char) → List (List Char)
  | done, [] => done
  | done, [s] => addSegment k done true s
  | done, s :: r => addSegments k (addSegment k done false s) r

/-- The segments of a path, without its first slash. -/
def segments (k : SchemeKind) (s : List Char) : List (List Char) :=
  addSegments k [] (Text.piecesBy k.isSlash s)

/-- The path after an authority. -/
def afterAuthority (k : SchemeKind) (s : List Char) : UrlPath :=
  match s with
  | [] => rooted (if k.isSpecial then [[]] else [])
  | _ :: r => rooted (segments k r)

/-- The segments without the empty ones they begin with, except the last of all. -/
def dropEmptySegments : List (List Char) → List (List Char)
  | [] :: s :: r => dropEmptySegments (s :: r)
  | ss => ss

/-- The path of a file, without its first slash. -/
def ofFile (s : List Char) : UrlPath :=
  rooted (dropEmptySegments (segments .file s))

/-- Whether a path begins with a drive. -/
def hasDrive : UrlPath → Bool
  | rooted (d :: _) => isDrive d
  | _ => false

end UrlPath

end Mintage.Net
