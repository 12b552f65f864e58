import Bogbin.Bogvm.Mesh

/-!
# Comparisons of values

`==` and `<` of Python as the comparison of two tuples uses them: the first items that differ decide,
and `<` of values that have no order raises.  What the text of a float stands for is a parameter.
-/

namespace Bogbin.Bogvm

variable (floats : Floats)

mutual

/-- The test for equal values in a comparison of tuples. -/
def same_value : Json → Json → Bool
  | .arr a, .arr b => same_items a b
  | .obj a, .obj b => same_fields a b
  | v, w =>
    match number floats v, number floats w with
    | .ok x, .ok y => x = y
    | _, _ => v = w

def same_items : List Json → List Json → Bool
  | [], [] => true
  | v :: a, w :: b => same_value v w && same_items a b
  | _, _ => false

def same_fields : List (String × Json) → List (String × Json) → Bool
  | [], [] => true
  | (k, v) :: a, (k', w) :: b => k = k' && same_value v w && same_fields a b
  | _, _ => false

end

mutual

/-- `a < b` -/
def less_value : Json → Json → Except PyError Bool
  | .str a, .str b => .ok (a.toList < b.toList)
  | .arr a, .arr b => less_items a b
  | v, w => do
    let x ← number floats v
    let y ← number floats w
    .ok (exceeds y x)

/-- The first items that differ decide. -/
def less_items : List Json → List Json → Except PyError Bool
  | [], b => .ok (b ≠ [])
  | _ :: _, [] => .ok false
  | v :: a, w :: b => if same_value floats v w then less_items a b else less_value v w

end

end Bogbin.Bogvm
