import StatementLang.Toml.Value
/-!
# Building TOML tables

A key leads through tables to the place of its last part; tables on the way that are not there yet
are added. No entry is ever replaced: a key that is taken, or a way that leads through something
that may not be extended, makes the document invalid.
-/
namespace StatementLang.Toml

/-- A key: the parts that lead to a table, and the part that names an entry of it. -/
structure Key where
  path : List String
  last : String
  deriving DecidableEq, Repr

/-- A header and the entries below it, up to the next header. -/
structure Section where
  ofTables : Bool
  key : Key
  body : List (Key × Value)

/-- A document: the entries before the first header, and the sections. -/
structure Document where
  top : List (Key × Value)
  sections : List Section

namespace Entries

/-- The entries with `v` under `k`, in the place of the old entry if there is one. -/
def insert (k : String) (v : Value) : Entries → Entries
  | [] => [(k, v)]
  | e :: es => if e.1 = k then (k, v) :: es else e :: insert k v es

/-- Change the entries of the table to which a path leads. The way may lead through tables, if
they were not written between braces, and through the last table of an array of tables; a dotted
key may not lead through a table that has a header of its own. It takes over the table to which it
leads, so that this gets no header later. -/
def modifyAt (dotted : Bool) (f : TableOrigin → Entries → Option Entries) :
    List String → TableOrigin → Entries → Option Entries
  | [], o, es => f o es
  | k :: ks, _, es =>
    match es.lookup k with
    | none =>
      let o := if dotted then TableOrigin.dotted else .implied
      (modifyAt dotted f ks o []).map fun sub => insert k (.table o sub) es
    | some (.table o sub) =>
      if o = .inline ∨ dotted ∧ o = .header then none
      else
        let o := if dotted ∧ ks = [] then TableOrigin.dotted else o
        (modifyAt dotted f ks o sub).map fun sub => insert k (.table o sub) es
    | some (.array true items) =>
      match items.getLast? with
      | some (.table o sub) =>
        (modifyAt dotted f ks o sub).map fun sub =>
          insert k (.array true (items.dropLast ++ [.table o sub])) es
      | _ => none
    | some _ => none

/-- Add an entry to a table that came about as `origin`. A dotted key adds nothing to a table that
has a header of its own. -/
def addEntry (origin : TableOrigin) (es : Entries) (entry : Key × Value) : Option Entries :=
  let (key, v) := entry
  modifyAt true
    (fun o es =>
      if key.path ≠ [] ∧ o = .header ∨ (es.lookup key.last).isSome then none
      else some (insert key.last v es))
    key.path origin es

/-- The entries of a table with a header of its own, given those it already has. -/
def addBody (es : Entries) (body : List (Key × Value)) : Option Entries :=
  body.foldlM (addEntry .header) es

/-- Add a section to the root. The table of a plain header may be there already only if earlier
headers led through it; an array of tables takes one more table. -/
def addSection (root : Entries) (s : Section) : Option Entries :=
  modifyAt false
    (fun _ es =>
      match s.ofTables, es.lookup s.key.last with
      | false, none => (addBody [] s.body).map fun t => insert s.key.last (.table .header t) es
      | false, some (.table .implied old) =>
        (addBody old s.body).map fun t => insert s.key.last (.table .header t) es
      | true, none =>
        (addBody [] s.body).map fun t => insert s.key.last (.array true [.table .header t]) es
      | true, some (.array true items) =>
        (addBody [] s.body).map fun t =>
          insert s.key.last (.array true (items ++ [.table .header t])) es
      | _, _ => none)
    s.key.path .header root

end Entries

/-- The entries of the root table of a document, if the document is valid. -/
def Document.root? (d : Document) : Option Entries := do
  d.sections.foldlM Entries.addSection (← Entries.addBody [] d.top)

end StatementLang.Toml
