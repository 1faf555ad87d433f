/-!
# Layer thickness

A print is built upwards, so the height that the head travels between two layers
is the thickness of the next one.  One travel must not be read that way: start
code often parks the head high above the bed and then drops it to the first layer.
Such a drop is measured from the bed instead.
-/

namespace PrintPath

/-- When a descent is a drop to the bed. -/
structure ThicknessRule where
  /-- A drop is deeper than this, in millimetres. -/
  dropThreshold : Float
  /-- A drop ends below this height. -/
  landingCeiling : Float

namespace ThicknessRule

/-- A drop falls more than 5 mm and ends less than 1 mm above the bed. -/
def standard : ThicknessRule := ⟨5.0, 1.0⟩

/-- Whether a travel between two heights is a drop to the bed. -/
def isDrop (rule : ThicknessRule) (old new : Float) : Bool :=
  decide (new < old) && decide (rule.dropThreshold < (old - new).abs)
    && decide (new < rule.landingCeiling)

/-- The layer thickness that a travel between two heights implies. -/
def thickness (rule : ThicknessRule) (old new : Float) : Float :=
  ((if rule.isDrop old new then 0.0 else old) - new).abs

end ThicknessRule
end PrintPath
