import Mintage.Text.Utf8

/-!
Quoted texts of TOML: with and without escapes, on one line and on several.

* `quoted?`: the text after an opening quotation mark and what follows the closing one.
-/

namespace Mintage.Toml

/-- Tabs and all characters that are no controls. -/
def isPlain (c : Char) : Bool :=
  c == '\t' || (0x20 ≤ c.toNat && c.toNat ≠ 0x7F)

/-- Blanks inside a line; a line break is none. -/
def isBlank (c : Char) : Bool :=
  c == ' ' || c == '\t'

/-- The character that hexadecimal digits denote. -/
def hexChar? (ds : List Char) : Option Char := do
  let vs ← ds.mapM Bytes.hexValue?
  let n := vs.foldl (fun n d => 16 * n + d) 0
  if n.isValidChar then some (Char.ofNat n) else none

/-- The character that a one-letter escape stands for. -/
def shortEscape? (c : Char) : Option Char :=
  match c with
  | 'b' => some '\x08'
  | 't' => some '\t'
  | 'n' => some '\n'
  | 'f' => some '\x0c'
  | 'r' => some '\r'
  | 'e' => some '\x1b'
  | '"' => some '"'
  | '\\' => some '\\'
  | _ => none

/-- A text on one line with escapes, up to the closing quotation mark. -/
def basic? : List Char → Option (List Char × List Char)
  | [] => none
  | '"' :: r => some ([], r)
  | '\\' :: 'x' :: a :: b :: r => escaped [a, b] (basic? r)
  | '\\' :: 'u' :: a :: b :: c :: d :: r => escaped [a, b, c, d] (basic? r)
  | '\\' :: 'U' :: a :: b :: c :: d :: e :: f :: g :: h :: r =>
      escaped [a, b, c, d, e, f, g, h] (basic? r)
  | '\\' :: c :: r => do
      let c ← shortEscape? c
      let (t, u) ← basic? r
      return (c :: t, u)
  | c :: r =>
      if isPlain c ∧ c ≠ '\\' then (basic? r).map fun p => (c :: p.1, p.2) else none
where
  escaped (ds : List Char) (rest : Option (List Char × List Char)) :
      Option (List Char × List Char) := do
    let c ← hexChar? ds
    let (t, u) ← rest
    return (c :: t, u)

/-- A text on one line without escapes, up to the closing mark. -/
def literal? : List Char → Option (List Char × List Char)
  | [] => none
  | '\'' :: r => some ([], r)
  | c :: r => if isPlain c then (literal? r).map fun p => (c :: p.1, p.2) else none

/-- Whether only blanks stand before the end of the line. -/
def endsLine (s : List Char) : Bool :=
  match s.dropWhile isBlank with
  | '\n' :: _ => true
  | '\r' :: '\n' :: _ => true
  | _ => false

/-- A text on several lines with escapes, up to the closing marks; up to two marks
before those belong to it. Blanks and line ends are left out while `skipping`, which a
backslash at the end of a line begins. -/
def longBasic? (skipping : Bool) : List Char → Option (List Char × List Char)
  | '"' :: '"' :: '"' :: '"' :: '"' :: r => some (['"', '"'], r)
  | '"' :: '"' :: '"' :: '"' :: r => some (['"'], r)
  | '"' :: '"' :: '"' :: r => some ([], r)
  | '\\' :: 'x' :: a :: b :: r => basic?.escaped [a, b] (longBasic? false r)
  | '\\' :: 'u' :: a :: b :: c :: d :: r => basic?.escaped [a, b, c, d] (longBasic? false r)
  | '\\' :: 'U' :: a :: b :: c :: d :: e :: f :: g :: h :: r =>
      basic?.escaped [a, b, c, d, e, f, g, h] (longBasic? false r)
  | '\\' :: c :: r =>
      if endsLine (c :: r) then longBasic? true (c :: r)
      else do
        let c ← shortEscape? c
        let (t, u) ← longBasic? false r
        return (c :: t, u)
  | '\r' :: '\n' :: r =>
      (longBasic? skipping r).map fun p => (if skipping then p.1 else '\r' :: '\n' :: p.1, p.2)
  | c :: r =>
      if skipping ∧ (isBlank c ∨ c = '\n') then longBasic? true r
      else if (isPlain c ∧ c ≠ '\\') ∨ c = '\n' then
        (longBasic? false r).map fun p => (c :: p.1, p.2)
      else none
  | [] => none

/-- A text on several lines without escapes, up to the closing marks. -/
def longLiteral? : List Char → Option (List Char × List Char)
  | '\'' :: '\'' :: '\'' :: '\'' :: '\'' :: r => some (['\'', '\''], r)
  | '\'' :: '\'' :: '\'' :: '\'' :: r => some (['\''], r)
  | '\'' :: '\'' :: '\'' :: r => some ([], r)
  | '\r' :: '\n' :: r => (longLiteral? r).map fun p => ('\r' :: '\n' :: p.1, p.2)
  | c :: r => if isPlain c ∨ c = '\n' then (longLiteral? r).map fun p => (c :: p.1, p.2) else none
  | [] => none

/-- The text without a line end at its beginning. -/
def dropLineEnd : List Char → List Char
  | '\n' :: r => r
  | '\r' :: '\n' :: r => r
  | s => s

/-- A quoted text of any kind, with what follows it. -/
def quoted? : List Char → Option (List Char × List Char)
  | '"' :: '"' :: '"' :: r => longBasic? false (dropLineEnd r)
  | '"' :: r => basic? r
  | '\'' :: '\'' :: '\'' :: r => longLiteral? (dropLineEnd r)
  | '\'' :: r => literal? r
  | _ => none

end Mintage.Toml
