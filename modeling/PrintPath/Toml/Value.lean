/-!
# Configuration values

A configuration text denotes a table of values.  A number that is well written may
still be one that nothing here can hold; it is kept as such, and only who asks for
the value is refused.

A table also remembers how it came into being, because that decides who may still add
to it: a table written on one line is complete as it stands, a table with a header is
defined once, and a table that only exists because a longer name passed through it can
be defined later.
-/

namespace PrintPath
namespace Toml

/-- How a table came into being. -/
inductive Origin where
  /-- As a part of a longer header. -/
  | passed
  /-- As a part of a dotted name. -/
  | dotted
  /-- By its own header. -/
  | header
  /-- In braces. -/
  | inline
  deriving DecidableEq, Repr

/-- A configuration value. -/
inductive Value where
  | text (characters : String)
  | integer (n : Int)
  | float (x : Float)
  | boolean (b : Bool)
  /-- A number that is well written but that no integer and no double here holds. -/
  | unreadable
  /-- A date, a time of day, or both. -/
  | moment (token : String)
  /-- A list of values; `ofTables` marks one whose elements are given by headers. -/
  | array (ofTables : Bool) (items : List Value)
  | table (origin : Origin) (entries : List (String × Value))

mutual

/-- Whether a value and everything in it can be held. -/
def Value.isReadable : Value → Bool
  | .unreadable => false
  | .array _ items => areReadable items
  | .table _ entries => entriesReadable entries
  | _ => true

/-- Whether all values of a list can be held. -/
def areReadable : List Value → Bool
  | [] => true
  | value :: rest => value.isReadable && areReadable rest

/-- Whether all values of a table can be held. -/
def entriesReadable : List (String × Value) → Bool
  | [] => true
  | (_, value) :: rest => value.isReadable && entriesReadable rest

end

/-- The names of a table with their values, in the order of their first
appearance. -/
abbrev Entries := List (String × Value)

namespace Entries

/-- The value of a name. -/
def get? (entries : Entries) (name : String) : Option Value :=
  entries.lookup name

/-- Give a name a value, in its place if it has one already. -/
def set (name : String) (value : Value) : Entries → Entries
  | [] => [(name, value)]
  | entry :: rest =>
    if entry.1 = name then (name, value) :: rest else entry :: set name value rest

/-- Whether the values of all names but the given ones can be held. -/
def othersReadable (names : List String) (entries : Entries) : Bool :=
  entries.all fun entry => names.contains entry.1 || entry.2.isReadable

end Entries
end Toml
end PrintPath
