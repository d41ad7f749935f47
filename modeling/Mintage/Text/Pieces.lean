/-!
Texts cut at every place where a separator stands, and texts joined by one.
-/

namespace Mintage.Text

/-- The texts between the characters that satisfy `p`. There is always at least one. -/
def piecesBy (p : Char → Bool) : List Char → List (List Char)
  | [] => [[]]
  | x :: r =>
      if p x then [] :: piecesBy p r
      else
        match piecesBy p r with
        | [] => [[x]]
        | s :: ss => (x :: s) :: ss

/-- The texts between the occurrences of `c`. -/
def pieces (c : Char) (s : List Char) : List (List Char) :=
  piecesBy (· == c) s

/-- Texts with a separator between each two of them. -/
def join (sep : List Char) : List (List Char) → List Char
  | [] => []
  | [s] => s
  | s :: r => s ++ sep ++ join sep r

end Mintage.Text
