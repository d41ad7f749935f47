import Mintage.Data.Datum

/-!
The tables of a TOML text while it is read. How a table came about decides what may
still be added to it.

* `open?`, `append?`: a header begins a table, or the next table of a list.
* `assign?`: a key, perhaps with points in it, gets a value.
-/

namespace Mintage.Toml

/-- How a table came about. -/
inductive Origin where
  /-- It has a header of its own. -/
  | written
  /-- The header of a table inside it mentions it. -/
  | implied
  /-- A key with points in it mentions it. -/
  | dotted
  deriving DecidableEq

/-- What a key stands for. -/
inductive Node where
  | value (d : Datum)
  | table (origin : Origin) (entries : List (String × Node))
  /-- A list of tables, each with a header of its own. -/
  | tables (items : List (List (String × Node)))

/-- The entries of a table, each key once. -/
abbrev Entries := List (String × Node)

namespace Entries

/-- What a key stands for. -/
def node? (k : String) : Entries → Option Node
  | [] => none
  | e :: r => if e.1 = k then some e.2 else node? k r

/-- Lets a key stand for something. -/
def put (k : String) (n : Node) : Entries → Entries
  | [] => [(k, n)]
  | e :: r => if e.1 = k then (k, n) :: r else e :: put k n r

/-- Changes the last of a list of tables. -/
def changeLast? (f : Entries → Option Entries) : List Entries → Option (List Entries)
  | [] => none
  | [t] => (f t).map ([·])
  | t :: r => (changeLast? f r).map (t :: ·)

/-- Changes the table that a key stands for: of a list the last one, and of no table a
new, implied one. -/
def changeTable? (k : String) (f : Entries → Option Entries) (es : Entries) : Option Entries :=
  match node? k es with
  | none => (f []).map fun t => put k (.table .implied t) es
  | some (.table o t) => (f t).map fun t => put k (.table o t) es
  | some (.tables ts) => (changeLast? f ts).map fun ts => put k (.tables ts) es
  | some (.value _) => none

/-- Changes the table at the end of a path. -/
def changeAt? (f : Entries → Option Entries) : List String → Entries → Option Entries
  | [], es => f es
  | k :: ks, es => changeTable? k (changeAt? f ks) es

/-- Begins the table of a header. Only an implied one may be there already. -/
def begin? (k : String) (es : Entries) : Option Entries :=
  match node? k es with
  | none => some (put k (.table .written []) es)
  | some (.table .implied t) => some (put k (.table .written t) es)
  | _ => none

/-- Begins the next table of a list. -/
def beginNext? (k : String) (es : Entries) : Option Entries :=
  match node? k es with
  | none => some (put k (.tables [[]]) es)
  | some (.tables ts) => some (put k (.tables (ts ++ [[]])) es)
  | _ => none

/-- Carries out a header with the given path. -/
def open? (path : List String) (es : Entries) : Option Entries := do
  changeAt? (begin? (← path.getLast?)) path.dropLast es

/-- Carries out a header with the given path, for the next table of a list. -/
def append? (path : List String) (es : Entries) : Option Entries := do
  changeAt? (beginNext? (← path.getLast?)) path.dropLast es

/-- Gives a value to a key with points in it. Its way may lead through tables that
headers imply or list, but it ends in one that such keys make, and never enters a table
that has a header of its own. -/
def assign? (d : Datum) : List String → Entries → Option Entries
  | [], _ => none
  | [k], es =>
      match node? k es with
      | none => some (put k (.value d) es)
      | some _ => none
  | k :: ks, es =>
      match node? k es with
      | none => (assign? d ks []).map fun t => put k (.table .dotted t) es
      | some (.table .dotted t) => (assign? d ks t).map fun t => put k (.table .dotted t) es
      | some (.table .implied t) =>
          if ks.length = 1 then none else (assign? d ks t).map fun t => put k (.table .implied t) es
      | some (.tables ts) =>
          if ks.length = 1 then none
          else (changeLast? (assign? d ks) ts).map fun ts => put k (.tables ts) es
      | some (.table .written _) => none
      | some (.value _) => none

end Entries

mutual

/-- What a key stands for, as structured data. -/
def Node.toDatum : Node → Datum
  | .value d => d
  | .table _ es => .record (Entries.fields es)
  | .tables ts => .list (Entries.records ts)

/-- The entries of a table as fields. -/
def Entries.fields : List (String × Node) → List (Option String × Datum)
  | [] => []
  | (k, n) :: r => (some k, n.toDatum) :: Entries.fields r

/-- Tables as records. -/
def Entries.records : List (List (String × Node)) → List Datum
  | [] => []
  | es :: r => .record (Entries.fields es) :: Entries.records r

end

end Mintage.Toml
