namespace BL.Text

/-!
# The order of texts

* `precedes` — texts in the order of the code points of their characters;
* `sort` — texts in this order.
-/

/-- The first text stands before the second, or both are equal: where they part, its character has
    the smaller code point, or it ends there. -/
def precedes : List Char → List Char → Bool
  | [], _ => true
  | _ :: _, [] => false
  | c :: cs, d :: ds => c.toNat < d.toNat || (c == d && precedes cs ds)

/-- The texts in order. -/
def sort (ss : List String) : List String :=
  ss.mergeSort fun s t => precedes s.toList t.toList

end BL.Text
