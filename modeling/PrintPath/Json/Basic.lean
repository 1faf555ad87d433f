import PrintPath.Number.Layout

/-!
# JSON texts

What the library publishes in machine-readable form is first built as a value and
then written in one of two forms: without any blanks, or with each element on a
line of its own.  Fields keep the order in which they are given.

JSON has no text for a number that is not finite; `null` stands for it.
-/

namespace PrintPath

/-- A JSON value. -/
inductive Json where
  | null
  | bool (b : Bool)
  | natural (n : Nat)
  | float (x : Float)
  | text (characters : String)
  | array (items : List Json)
  | object (fields : List (String × Json))

namespace Json

/-- How a double is written: the fewest digits, positionally from `0.00001` to
below `10 ^ 16`, and always recognisable as no whole number. -/
def numberLayout : Number.Layout :=
  { tie := .even
    positional := some (-5, 15)
    wholeEnd := ".0"
    undefined := "null"
    infinite := fun _ => "null" }

/-- The two hexadecimal digits of a small number. -/
def hexPair (n : Nat) : List Char :=
  [Nat.digitChar (n / 16 % 16), Nat.digitChar (n % 16)]

/-- A character as it stands between quotation marks. -/
def escape (c : Char) : List Char :=
  if c = '"' then ['\\', '"']
  else if c = '\\' then ['\\', '\\']
  else if c = '\x08' then ['\\', 'b']
  else if c = '\x0c' then ['\\', 'f']
  else if c = '\n' then ['\\', 'n']
  else if c = '\r' then ['\\', 'r']
  else if c = '\t' then ['\\', 't']
  else if c.toNat < 0x20 then ['\\', 'u', '0', '0'] ++ hexPair c.toNat
  else [c]

/-- A text between quotation marks. -/
def quote (characters : String) : String :=
  "\"" ++ String.ofList (characters.toList.flatMap escape) ++ "\""

/-- The text of an optional value. -/
def ofOption (value : Option String) : Json :=
  match value with
  | none => null
  | some characters => text characters

/-! ## Without blanks -/

mutual

/-- A value without any blanks. -/
def compact : Json → String
  | null => "null"
  | bool b => if b then "true" else "false"
  | natural n => toString n
  | float x => numberLayout.write x
  | text characters => quote characters
  | array items => "[" ++ ",".intercalate (compactItems items) ++ "]"
  | object fields => "\x7b" ++ ",".intercalate (compactFields fields) ++ "\x7d"

/-- The elements of a list, each without blanks. -/
def compactItems : List Json → List String
  | [] => []
  | item :: rest => compact item :: compactItems rest

/-- The fields of an object, each without blanks. -/
def compactFields : List (String × Json) → List String
  | [] => []
  | (name, value) :: rest => (quote name ++ ":" ++ compact value) :: compactFields rest

end

/-! ## One element a line -/

/-- The start of a line inside `depth` brackets. -/
def indent (depth : Nat) : String :=
  "\n" ++ String.ofList (List.replicate (2 * depth) ' ')

/-- Lines between brackets; nothing stands between the brackets if there are no
lines. -/
def bracketed (depth : Nat) (start finish : String) (lines : List String) : String :=
  if lines = [] then start ++ finish
  else
    start ++ indent (depth + 1) ++ ("," ++ indent (depth + 1)).intercalate lines
      ++ indent depth ++ finish

mutual

/-- A value inside `depth` brackets, each element on a line of its own. -/
def prettyAt (depth : Nat) : Json → String
  | null => "null"
  | bool b => if b then "true" else "false"
  | natural n => toString n
  | float x => numberLayout.write x
  | text characters => quote characters
  | array items => bracketed depth "[" "]" (prettyItems (depth + 1) items)
  | object fields => bracketed depth "\x7b" "\x7d" (prettyFields (depth + 1) fields)

/-- The elements of a list inside `depth` brackets. -/
def prettyItems (depth : Nat) : List Json → List String
  | [] => []
  | item :: rest => prettyAt depth item :: prettyItems depth rest

/-- The fields of an object inside `depth` brackets. -/
def prettyFields (depth : Nat) : List (String × Json) → List String
  | [] => []
  | (name, value) :: rest =>
    (quote name ++ ": " ++ prettyAt depth value) :: prettyFields depth rest

end

/-- A value with each element on a line of its own. -/
def pretty (value : Json) : String :=
  prettyAt 0 value

theorem prettyItems_eq_map (depth : Nat) (items : List Json) :
    prettyItems depth items = items.map (prettyAt depth) := by
  induction items with
  | nil => rfl
  | cons item rest ih => rw [prettyItems, ih, List.map_cons]

theorem prettyFields_eq_map (depth : Nat) (fields : List (String × Json)) :
    prettyFields depth fields =
      fields.map fun field => quote field.1 ++ ": " ++ prettyAt depth field.2 := by
  induction fields with
  | nil => rfl
  | cons field rest ih => rw [prettyFields, ih, List.map_cons]

/-- The elements of a list stand between brackets, each on lines of its own. -/
theorem prettyAt_array (depth : Nat) {items : List Json} (h : items ≠ []) :
    prettyAt depth (.array items) =
      "[" ++ indent (depth + 1)
        ++ ("," ++ indent (depth + 1)).intercalate (items.map (prettyAt (depth + 1)))
        ++ indent depth ++ "]" := by
  rw [prettyAt, prettyItems_eq_map, bracketed, if_neg (mt List.map_eq_nil_iff.mp h)]

/-- The fields of an object stand between braces, each with its name in front. -/
theorem prettyAt_object (depth : Nat) {fields : List (String × Json)} (h : fields ≠ []) :
    prettyAt depth (.object fields) =
      "\x7b" ++ indent (depth + 1)
        ++ ("," ++ indent (depth + 1)).intercalate (fields.map fun field =>
          quote field.1 ++ ": " ++ prettyAt (depth + 1) field.2)
        ++ indent depth ++ "\x7d" := by
  rw [prettyAt, prettyFields_eq_map, bracketed, if_neg (mt List.map_eq_nil_iff.mp h)]

end Json
end PrintPath
