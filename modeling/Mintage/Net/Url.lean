import Mintage.Net.UrlPath

/-!
Locators: a scheme, an authority, a path, a query and a fragment. Reading brings each
part into its one written form, so that locators which are read alike are written alike.

* `Url.read?`: the parts of a text.
* `Url.chars`: the written form.
-/

namespace Mintage.Net

/-- A URL, cut into its parts. All of them are kept encoded. -/
structure Url where
  scheme : List Char
  authority : Option Authority
  path : UrlPath
  query : Option (List Char)
  fragment : Option (List Char)
  deriving DecidableEq

namespace Url

/-! ### Writing -/

/-- What stands before the path: two slashes and the authority. Where there is none, a
path that looks like one is kept apart from its scheme. -/
def beforePath (u : Url) : List Char :=
  match u.authority, u.path with
  | some a, _ => '/' :: '/' :: a.chars
  | none, .rooted ([] :: _ :: _) => ['/', '.']
  | none, _ => []

/-- A part behind its mark, or nothing where there is none. -/
def marked (mark : Char) (part : Option (List Char)) : List Char :=
  match part with
  | some s => mark :: s
  | none => []

/-- The parts put together again. -/
def chars (u : Url) : List Char :=
  u.scheme ++ ':' :: u.beforePath ++ u.path.chars ++ marked '?' u.query ++ marked '#' u.fragment

/-- The parts put together again, as a text. -/
def text (u : Url) : String :=
  String.ofList u.chars

/-! ### Reading -/

/-- The text without controls and spaces at its ends, and without tabs and line ends. -/
def clean (s : List Char) : List Char :=
  let outer (c : Char) : Bool := c.toNat ≤ 0x20
  ((s.dropWhile outer).reverse.dropWhile outer).reverse.filter fun c => c ∉ ['\t', '\n', '\r']

/-- What a scheme may have behind its first letter. -/
def isSchemeChar (c : Char) : Bool :=
  c.isAlphanum || c ∈ ['+', '-', '.']

/-- The scheme, in lower case, and what follows its colon. -/
def readScheme? (s : List Char) : Option (List Char × List Char) := do
  let (scheme, rest) ← Text.splitAt? ':' s
  if scheme.head?.any Char.isAlpha ∧ scheme.all isSchemeChar
    then return (scheme.map Char.toLower, rest)
  else none

/-- The text before a mark, and the part behind it. -/
def cutPart (mark : Char) (s : List Char) : List Char × Option (List Char) :=
  match Text.splitAt? mark s with
  | some (a, b) => (a, some b)
  | none => (s, none)

/-- Reads an authority and the path that follows it. -/
def readNetwork? (scheme s : List Char) : Option (Authority × UrlPath) := do
  let k := SchemeKind.ofScheme scheme
  let a ← Authority.read? scheme (s.takeWhile fun c => !k.isSlash c)
  return (a, .afterAuthority k (s.dropWhile fun c => !k.isSlash c))

/-- Reads the host and path of a file. There is no host where a drive stands first, and
the machine itself needs none. -/
def readFile? (s : List Char) : Option (Authority × UrlPath) :=
  let slash := SchemeKind.file.isSlash
  match s with
  | a :: b :: r =>
      if slash a ∧ slash b then
        let hostText := r.takeWhile fun c => !slash c
        let path := UrlPath.ofFile ((r.dropWhile fun c => !slash c).drop 1)
        if UrlPath.isDrive hostText then some (.empty, .ofFile r)
        else if hostText.isEmpty then some (.empty, path)
        else do
          let host ← Host.readDomain? hostText
          if path.hasDrive ∨ host = .name "localhost".toList then return (.empty, path)
          else return ({ Authority.empty with host }, path)
      else some (.empty, .ofFile (if slash a then b :: r else a :: b :: r))
  | [a] => some (.empty, .ofFile (if slash a then [] else [a]))
  | [] => some (.empty, .ofFile [])

/-- Reads authority and path. -/
def readBody? (scheme s : List Char) : Option (Option Authority × UrlPath) :=
  match SchemeKind.ofScheme scheme with
  | .file => (readFile? s).map fun p => (some p.1, p.2)
  | .network => (readNetwork? scheme (s.dropWhile SchemeKind.network.isSlash)).map fun p =>
      (some p.1, p.2)
  | .other =>
      match s with
      | '/' :: '/' :: r => (readNetwork? scheme r).map fun p => (some p.1, p.2)
      | '/' :: r => some (none, .rooted (UrlPath.segments .other r))
      | r => some (none, .bare (Percent.encode Percent.control r))

/-- Reads a locator that needs no other one to start from. -/
def read? (s : List Char) : Option Url := do
  let (scheme, rest) ← readScheme? (clean s)
  let (rest, fragment) := cutPart '#' rest
  let (rest, query) := cutPart '?' rest
  let (authority, path) ← readBody? scheme rest
  let inQuery := if (SchemeKind.ofScheme scheme).isSpecial then Percent.specialQuery
    else Percent.query
  return ⟨scheme, authority, path, query.map (Percent.encode inQuery),
    fragment.map (Percent.encode Percent.fragment)⟩

end Url

end Mintage.Net
