import Bundler.Toml.Statement
import Bundler.Table

/-!
# TOML documents

Statements are put together into one table. A table is defined once: a header
may complete a table that so far was only implied by longer headers, dotted keys
may extend only tables that dotted keys made, and inline tables are closed.
-/

namespace Bundler.Toml

/-- How a table came to be. -/
inductive Origin where
  /-- Named on the way to another table. -/
  | implied
  | dotted
  | header
  | inline
  deriving DecidableEq, Repr

inductive Node where
  | leaf (value : Value)
  | list (items : List Node)
  | table (origin : Origin) (entries : List (String × Node))
  /-- An array of tables, the latest first. -/
  | tables (items : List (List (String × Node)))
  deriving Inhabited

abbrev Entries := List (String × Node)

def lookup? (key : String) (entries : Entries) : Option Node :=
  (entries.find? fun entry => entry.1 == key).map Prod.snd

def replace (key : String) (node : Node) (entries : Entries) : Entries :=
  if entries.any fun entry => entry.1 == key then
    entries.map fun entry => if entry.1 == key then (key, node) else entry
  else entries ++ [(key, node)]

/-- Go down a path and change the table at its end, making tables on the way.
`dotted` says that the path is part of a dotted key. -/
def descend? (dotted : Bool) (change : Origin → Entries → Option Entries) :
    List String → Origin → Entries → Option Entries
  | [], origin, entries => change origin entries
  | key :: path, _, entries =>
    match lookup? key entries with
    | none =>
      let origin := if dotted then Origin.dotted else .implied
      (descend? dotted change path origin []).map fun inner =>
        replace key (.table origin inner) entries
    | some (.table origin inner) =>
      if origin = .inline ∨ (dotted = true ∧ origin = .header) then none
      else
        (descend? dotted change path origin inner).map fun inner =>
          replace key (.table origin inner) entries
    | some (.tables (last :: others)) =>
      (descend? dotted change path .header last).map fun last =>
        replace key (.tables (last :: others)) entries
    | some _ => none

/-- Give a key in a table its node. A dotted key may only add to a table made by
dotted keys, a plain key only to another one. -/
def assign? (path : List String) (node : Node) (origin : Origin) (entries : Entries) :
    Option Entries :=
  match path.getLast? with
  | none => none
  | some key =>
    descend? true (fun parent entries =>
      if (parent == .dotted) == (path.length == 1) then none
      else if (lookup? key entries).isSome then none
      else some (entries ++ [(key, node)])) path.dropLast origin entries

/-- A written value as a node; the assignments of inline tables must fit. -/
def nodeOf? : Term → Option Node
  | .value value => some (.leaf value)
  | .array items => (itemsOf? items).map .list
  | .inline entries => (entriesOf? [] entries).map (.table .inline)
where
  itemsOf? : List Term → Option (List Node)
    | [] => some []
    | item :: rest =>
      match nodeOf? item, itemsOf? rest with
      | some node, some nodes => some (node :: nodes)
      | _, _ => none
  entriesOf? (made : Entries) : List (List String × Term) → Option Entries
    | [] => some made
    | (path, term) :: rest =>
      match nodeOf? term with
      | none => none
      | some node =>
        match assign? path node .header made with
        | none => none
        | some made => entriesOf? made rest

/-- Open the table of a header. -/
def openTable? (path : List String) (root : Entries) : Option Entries :=
  match path.getLast? with
  | none => none
  | some key =>
    descend? false (fun _ entries =>
      match lookup? key entries with
      | none => some (entries ++ [(key, .table .header [])])
      | some (.table .implied inner) => some (replace key (.table .header inner) entries)
      | some _ => none) path.dropLast .header root

/-- Add a table to the array of a header. -/
def openArrayTable? (path : List String) (root : Entries) : Option Entries :=
  match path.getLast? with
  | none => none
  | some key =>
    descend? false (fun _ entries =>
      match lookup? key entries with
      | none => some (entries ++ [(key, .tables [[]])])
      | some (.tables items) => some (replace key (.tables ([] :: items)) entries)
      | some _ => none) path.dropLast .header root

/-- Put statements together; `current` is the path of the open table. -/
def assemble? : List String → Entries → List Statement → Option Entries
  | _, root, [] => some root
  | _, root, .table path :: rest => (openTable? path root).bind fun root => assemble? path root rest
  | _, root, .arrayTable path :: rest =>
    (openArrayTable? path root).bind fun root => assemble? path root rest
  | current, root, .assign path term :: rest =>
    match nodeOf? term with
    | none => none
    | some node =>
      let assigned :=
        descend? false (fun _ entries => assign? path node .header entries) current .header root
      assigned.bind fun root => assemble? current root rest

def sorted (entries : List (String × Value)) : List (String × Value) :=
  entries.mergeSort fun left right => left.1 ≤ right.1

/-- The value of a node, with all keys in order. -/
def valueOf : Node → Value
  | .leaf value => value
  | .list items => .array (valuesOf items)
  | .table _ entries => .table (sorted (entriesValues entries))
  | .tables items => .array (tablesValues items).reverse
where
  valuesOf : List Node → List Value
    | [] => []
    | node :: rest => valueOf node :: valuesOf rest
  entriesValues : List (String × Node) → List (String × Value)
    | [] => []
    | (key, node) :: rest => (key, valueOf node) :: entriesValues rest
  tablesValues : List (List (String × Node)) → List Value
    | [] => []
    | entries :: rest => .table (sorted (entriesValues entries)) :: tablesValues rest

/-- The table that a document describes, with its keys in order. -/
def parse? (source : String) : Option (List (String × Value)) :=
  (statements? source).bind fun statements =>
    (assemble? [] [] statements).map fun root =>
      sorted (valueOf.entriesValues root)

end Bundler.Toml
