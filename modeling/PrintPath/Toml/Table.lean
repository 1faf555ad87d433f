import PrintPath.Toml.Value

/-!
# Who may add to a table

A table is filled from two sides.  A *header* opens a table and everything below it
goes there; a *dotted name* reaches a table inside the one that is open.  The rules
say that no table is defined twice:

* a header may pass through any table except one in braces, and through the last
  element of a list of tables; it may define the table it names only if that table
  came into being because another header passed through it;
* a dotted name may pass through tables that no header has defined, and makes them
  tables of dotted names, which no header may define any more; the table it ends in
  must be such a one;
* a name has one value.
-/

namespace PrintPath
namespace Toml

/-- Change the table that a list of names leads to.  Tables that are missing on the
way come into being with the origin `made`; `passed?` says which tables may be gone
through, and what origin they have from then on. -/
def changeAt (made : Origin) (passed? : Origin → Option Origin)
    (change : Origin → Entries → Option (Origin × Entries)) :
    List String → Origin → Entries → Option (Origin × Entries)
  | [], origin, entries => change origin entries
  | name :: path, origin, entries =>
    match entries.get? name with
    | none =>
      (changeAt made passed? change path made []).map fun inner =>
        (origin, entries.set name (.table inner.1 inner.2))
    | some (.table innerOrigin inner) =>
      match passed? innerOrigin with
      | some opened =>
        (changeAt made passed? change path opened inner).map fun changed =>
          (origin, entries.set name (.table changed.1 changed.2))
      | none => none
    | some (.array true items) =>
      match items.getLast? with
      | some (.table innerOrigin inner) =>
        (changeAt made passed? change path innerOrigin inner).map fun changed =>
          (origin, entries.set name
            (.array true (items.dropLast ++ [.table changed.1 changed.2])))
      | _ => none
    | some _ => none

/-- A header passes through any table but one in braces, and leaves it as it is. -/
def passedByHeader? : Origin → Option Origin
  | .inline => none
  | origin => some origin

/-- A dotted name passes through tables that were only passed before or that are of
dotted names already. -/
def passedByName? : Origin → Option Origin
  | .passed => some .dotted
  | .dotted => some .dotted
  | .header => none
  | .inline => none

/-- Change the table that a header leads to. -/
def changeAtHeader (change : Origin → Entries → Option (Origin × Entries)) :
    List String → Origin → Entries → Option (Origin × Entries) :=
  changeAt .passed passedByHeader? change

/-- Define the table of a header. -/
def openTable (name : String) (origin : Origin) (entries : Entries) :
    Option (Origin × Entries) :=
  match entries.get? name with
  | none => some (origin, entries.set name (.table .header []))
  | some (.table .passed inner) => some (origin, entries.set name (.table .header inner))
  | some _ => none

/-- Add an element to the list of tables of a header. -/
def openElement (name : String) (origin : Origin) (entries : Entries) :
    Option (Origin × Entries) :=
  match entries.get? name with
  | none => some (origin, entries.set name (.array true [.table .header []]))
  | some (.array true items) =>
    some (origin, entries.set name (.array true (items ++ [.table .header []])))
  | some _ => none

/-- Give a name in a table its value.  A table that a dotted name leads to must be
one that a dotted name made. -/
def addEntry (isDotted : Bool) (name : String) (value : Value) (origin : Origin)
    (entries : Entries) : Option (Origin × Entries) :=
  if (origin == .dotted) != isDotted then none
  else match entries.get? name with
    | none => some (origin, entries.set name value)
    | some _ => none

/-- Give a dotted name its value, in a table that is open. -/
def assign (path : List String) (name : String) (value : Value) :
    Origin → Entries → Option (Origin × Entries) :=
  changeAt .dotted passedByName? (addEntry (path != []) name value) path

/-- The table in braces with the given assignments. -/
def inlineTable (assignments : List ((List String × String) × Value)) : Option Value :=
  (assignments.foldlM
    (fun (table : Origin × Entries) a => assign a.1.1 a.1.2 a.2 table.1 table.2)
    (Origin.inline, [])).map fun table => .table table.1 table.2

end Toml
end PrintPath
