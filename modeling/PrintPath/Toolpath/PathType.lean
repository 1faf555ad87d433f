/-!
# Path types

A slicer announces what the following moves are for: an outer wall, infill, a
skirt.  The announcements it is known to make have constructors of their own;
any other tag is kept word for word, so that an unusual slicer still gets its
segments split where it asked for it.

`tag_ofTag` says that reading a tag loses nothing.  The other way round only holds
for the types that reading can produce: `other` of a known tag is a value, but no
tag denotes it.
-/

namespace PrintPath

/-- What a stretch of motion is for. -/
inductive PathType where
  /-- Unclassified motion: start code, end code, anything before the first tag. -/
  | custom
  | wallOuter
  | wallInner
  | fill
  | skin
  | skirt
  | support
  /-- A tag that none of the others has. -/
  | other (tag : String)
  deriving DecidableEq, Repr

namespace PathType

instance : Inhabited PathType := ⟨custom⟩

/-- The type that a tag denotes. -/
def ofTag (tag : String) : PathType :=
  if tag = "CUSTOM" then custom
  else if tag = "WALL-OUTER" then wallOuter
  else if tag = "WALL-INNER" then wallInner
  else if tag = "FILL" then fill
  else if tag = "SKIN" then skin
  else if tag = "SKIRT" then skirt
  else if tag = "SUPPORT" then support
  else other tag

/-- The tag of a type, as the slicer writes it. -/
def tag : PathType → String
  | custom => "CUSTOM"
  | wallOuter => "WALL-OUTER"
  | wallInner => "WALL-INNER"
  | fill => "FILL"
  | skin => "SKIN"
  | skirt => "SKIRT"
  | support => "SUPPORT"
  | other tag => tag

/-- Reading a tag loses nothing. -/
@[simp] theorem tag_ofTag (text : String) : (ofTag text).tag = text := by
  unfold ofTag
  repeat' split
  all_goals simp_all [tag]

end PathType
end PrintPath
