/-!
# The three axes

Everything that a printer says about its axes comes in threes: a position, the
words of a command that name a coordinate, the axes that a homing command names.
`Axes α` holds one `α` per axis, and a position is an `Axes Float` in millimetres.
-/

namespace PrintPath

/-- One value for each axis. -/
structure Axes (α : Type) where
  x : α
  y : α
  z : α
  deriving DecidableEq, Repr

namespace Axes

variable {α β γ : Type}

/-- The same value on every axis. -/
def all (a : α) : Axes α := ⟨a, a, a⟩

/-- Combine two triples axis by axis. -/
def zipWith (f : α → β → γ) (a : Axes α) (b : Axes β) : Axes γ :=
  ⟨f a.x b.x, f a.y b.y, f a.z b.z⟩

/-- Whether some axis satisfies `p`. -/
def any (p : α → Bool) (a : Axes α) : Bool :=
  p a.x || p a.y || p a.z

end Axes

/-- A place in space, in millimetres. -/
abbrev Position := Axes Float

namespace Position

/-- The place where all three coordinates are zero. -/
def origin : Position := .all 0.0

/-- The displacement from `b` to `a`. -/
def sub (a b : Position) : Position := Axes.zipWith (· - ·) a b

/-- The Euclidean length of a displacement.  The squares are added from left to
right. -/
def length (a : Position) : Float :=
  (a.x * a.x + a.y * a.y + a.z * a.z).sqrt

/-- The distance from one place to another: the length of the displacement between
them. -/
def distance (start finish : Position) : Float :=
  length (sub finish start)

end Position
end PrintPath
