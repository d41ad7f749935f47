import Mintage.Data.Toml.Quoted
import Mintage.Data.Toml.Scalar
import Mintage.Data.Toml.Table

/-!
The TOML text format.

* `Toml.read?`: the record that a text describes with headers, and keys and their values.
-/

namespace Mintage.Toml

/-! ### Blanks, comments and line ends -/

/-- What follows the blanks at the beginning. -/
def skipBlank (s : List Char) : List Char :=
  s.dropWhile isBlank

/-- What follows the rest of a line, which may hold a comment. -/
def endLine? (s : List Char) : Option (List Char) :=
  match skipBlank s with
  | [] => some []
  | '\n' :: r => some r
  | '\r' :: '\n' :: r => some r
  | '#' :: r =>
      match r.dropWhile isPlain with
      | [] => some []
      | '\n' :: r => some r
      | '\r' :: '\n' :: r => some r
      | _ => none
  | _ => none

/-- What follows blanks, comments and line ends; `fuel` bounds the number of lines. -/
def skipLines : Nat → List Char → List Char
  | 0, s => s
  | fuel + 1, s =>
      match skipBlank s with
      | [] => []
      | c :: r =>
          match endLine? (c :: r) with
          | some r => skipLines fuel r
          | none => c :: r

/-! ### Keys -/

/-- A key of these characters needs no quotes. -/
def isBareKeyChar (c : Char) : Bool :=
  c.isAlphanum || c == '-' || c == '_'

/-- One key, bare or quoted on one line. -/
def key? (s : List Char) : Option (String × List Char) :=
  match s with
  | '"' :: r => (basic? r).map fun p => (String.ofList p.1, p.2)
  | '\'' :: r => (literal? r).map fun p => (String.ofList p.1, p.2)
  | _ =>
      let bare := s.takeWhile isBareKeyChar
      if bare.isEmpty then none else some (String.ofList bare, s.dropWhile isBareKeyChar)

/-- Keys with points between; `fuel` bounds their number. -/
def keyPath? : Nat → List Char → Option (List String × List Char)
  | 0, _ => none
  | fuel + 1, s => do
      let (k, r) ← key? (skipBlank s)
      match skipBlank r with
      | '.' :: t => do
          let (ks, u) ← keyPath? fuel t
          return (k :: ks, u)
      | t => return ([k], t)

/-! ### Values -/

/-- How deep lists and tables may stand in each other. -/
def maxDepth : Nat := 80

mutual

/-- One value; `fuel` bounds the nesting and the number of items. -/
def value? (depth : Nat) : Nat → List Char → Option (Datum × List Char)
  | 0, _ => none
  | fuel + 1, s =>
      match s with
      | '"' :: _ => (quoted? s).map fun p => (.ofString (String.ofList p.1), p.2)
      | '\'' :: _ => (quoted? s).map fun p => (.ofString (String.ofList p.1), p.2)
      | '[' :: r =>
          if depth = 0 then none
          else (items? (depth - 1) fuel r).map fun p => (.list p.1, p.2)
      | '{' :: r =>
          if depth = 0 then none
          else (inlineEntries? (depth - 1) fuel [] r).map fun p =>
            (.record (Entries.fields p.1), p.2)
      | _ =>
          let (word, r) := cutWord s
          (scalar? word).map (·, r)

/-- Values with commas between, up to the bracket that ends them. -/
def items? (depth : Nat) : Nat → List Char → Option (List Datum × List Char)
  | 0, _ => none
  | fuel + 1, s =>
      match skipLines (s.length + 1) s with
      | ']' :: r => some ([], r)
      | s => do
          let (d, r) ← value? depth fuel s
          match skipLines (r.length + 1) r with
          | ']' :: t => return ([d], t)
          | ',' :: t => do
              let (ds, u) ← items? depth fuel t
              return (d :: ds, u)
          | _ => none

/-- Keys and values with commas between, up to the brace that ends them. -/
def inlineEntries? (depth : Nat) : Nat → Entries → List Char → Option (Entries × List Char)
  | 0, _, _ => none
  | fuel + 1, es, s =>
      match skipLines (s.length + 1) s with
      | '}' :: r => some (es, r)
      | s => do
          let (path, r) ← keyPath? s.length s
          match r with
          | '=' :: r => do
              let (d, r) ← value? depth fuel (skipBlank r)
              let es ← Entries.assign? d path es
              match skipLines (r.length + 1) r with
              | '}' :: t => return (es, t)
              | ',' :: t => inlineEntries? depth fuel es t
              | _ => none
          | _ => none

end

/-! ### Lines -/

/-- What has been read: all entries, and the path of the table that the last header
began. -/
structure Progress where
  entries : Entries
  path : List String

/-- A header after its opening brackets, with so many of them to be closed. -/
def header? (brackets : List Char) (s : List Char) : Option (List String × List Char) := do
  let (path, r) ← keyPath? s.length s
  if brackets <+: r then return (path, ← endLine? (r.drop brackets.length)) else none

/-- A key, its value and the rest of the line. -/
def assignment? (s : List Char) : Option (List String × Datum × List Char) := do
  let (path, r) ← keyPath? s.length s
  match r with
  | '=' :: r => do
      let (d, r) ← value? maxDepth (2 * s.length) (skipBlank r)
      return (path, d, ← endLine? r)
  | _ => none

/-- Reads line after line; `fuel` bounds their number. -/
def lines? : Nat → Progress → List Char → Option Entries
  | 0, _, _ => none
  | fuel + 1, p, s =>
      match skipLines (s.length + 1) s with
      | [] => some p.entries
      | '[' :: '[' :: r => do
          let (path, r) ← header? [']', ']'] r
          lines? fuel ⟨← Entries.append? path p.entries, path⟩ r
      | '[' :: r => do
          let (path, r) ← header? [']'] r
          lines? fuel ⟨← Entries.open? path p.entries, path⟩ r
      | s => do
          let (path, d, r) ← assignment? s
          lines? fuel { p with
            entries := ← Entries.changeAt? (Entries.assign? d path) p.path p.entries } r

/-- The record that a text describes. A mark of byte order may stand in front. -/
def read? (text : String) : Option Datum :=
  let s := text.toList
  let s := if s.head? = some '\ufeff' then s.drop 1 else s
  (lines? (s.length + 1) ⟨[], []⟩ s).map fun es => .record (Entries.fields es)

end Mintage.Toml
