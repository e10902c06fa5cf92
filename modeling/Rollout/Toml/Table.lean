import Rollout.Toml.Value

/-!
# Growing tables

How keys and headers make tables grow.  A key leads from table to table; tables on the way are made
when they are missing.  Through an array of tables it leads into the last one.

A table in braces, and any value that is no table, cannot be entered.  A dotted key cannot enter a
table that has a header, and can only add to a table that was itself made by a dotted key.
-/

namespace Rollout.Toml

/-! ## Entries -/

/-- The entries with the value of one name replaced. -/
def replaceEntry (name : String) (value : Value) : Entries → Entries
  | [] => []
  | entry :: rest =>
      if entry.1 = name then (name, value) :: rest else entry :: replaceEntry name value rest

/-- Adds an entry whose name must be new. -/
def addEntry (name : String) (value : Value) (entries : Entries) : Except Fault Entries :=
  match entries.lookup name with
  | none => .ok (entries ++ [(name, value)])
  | some _ => .error (.duplicateKey name)

/-- Changes the last table of an array of tables. -/
def editLast (name : String) (edit : Origin → Entries → Except Fault Entries)
    (items : List Value) : Except Fault (List Value) :=
  match items.getLast? with
  | some (.table origin entries) => do
      let entries ← edit origin entries
      return items.dropLast ++ [.table origin entries]
  | _ => .error (.closed name)

/-- Changes the table that a key leads to; `dotted` tells whether the key is a dotted one or the key
of a header. -/
def editAt (dotted : Bool) (edit : Origin → Entries → Except Fault Entries) :
    List String → Origin → Entries → Except Fault Entries
  | [], origin, entries => edit origin entries
  | name :: rest, _, entries =>
      match entries.lookup name with
      | none => do
          let origin := if dotted then Origin.dotted else Origin.implied
          let inner ← editAt dotted edit rest origin []
          return entries ++ [(name, .table origin inner)]
      | some (.table origin inner) =>
          if origin = .braces || (dotted && origin = .header) then .error (.closed name)
          else do
            let inner ← editAt dotted edit rest origin inner
            return replaceEntry name (.table origin inner) entries
      -- an array of tables is entered through its last table
      | some (.array true items) => do
          let items ← editLast name (editAt dotted edit rest) items
          return replaceEntry name (.array true items) entries
      | some _ => .error (.closed name)

/-! ## Keys with values -/

/-- Gives a key its value in a table. -/
def assign (key : List String) (value : Value) (origin : Origin) (entries : Entries) :
    Except Fault Entries :=
  match key.getLast? with
  | none => .error .missingKey
  | some name =>
      let around := key.dropLast
      editAt true
        (fun parent entries =>
          if !around.isEmpty && parent ≠ .dotted then .error (.closed name)
          else addEntry name value entries)
        around origin entries

/-! ## Headers -/

/-- Opens the table of a header in single brackets.  It must be new, or known only from the headers
of tables inside it. -/
def openTable (name : String) (entries : Entries) : Except Fault Entries :=
  match entries.lookup name with
  | none => .ok (entries ++ [(name, .table .header [])])
  | some (.table .implied inner) => .ok (replaceEntry name (.table .header inner) entries)
  | some _ => .error (.duplicateKey name)

/-- Opens another table of a header in double brackets. -/
def openElement (name : String) (entries : Entries) : Except Fault Entries :=
  match entries.lookup name with
  | none => .ok (entries ++ [(name, .array true [.table .header []])])
  | some (.array true items) =>
      .ok (replaceEntry name (.array true (items ++ [.table .header []])) entries)
  | some _ => .error (.duplicateKey name)

/-- Opens the table of a header in the root table. -/
def openHeader (element : Bool) (key : List String) (root : Entries) : Except Fault Entries :=
  match key.getLast? with
  | none => .error .missingKey
  | some name =>
      let edit := if element then openElement name else openTable name
      editAt false (fun _ entries => edit entries) key.dropLast .header root

/-! ## Equations -/

@[simp]
theorem editAt_nil (dotted : Bool) (edit : Origin → Entries → Except Fault Entries)
    (origin : Origin) (entries : Entries) :
    editAt dotted edit [] origin entries = edit origin entries := rfl

end Rollout.Toml
