import CasStore.Fault

/-!
# The order of values

Keys are in the order of their texts, versions and numbers in that of the integers.  Texts are compared
by the numbers of their characters.  Values of other types, or of two types, are in no order.
-/

namespace CasStore

/-- The two values are in no order. -/
def notOrdered (v w : Value) : Fault :=
  .wrongType s!"'<' not supported between instances of '{v.typeName}' and '{w.typeName}'"

/-- How two values are ordered. -/
def Value.order (v w : Value) : Except Fault Ordering :=
  match v, w with
  | .key k, .key l => .ok (compare k.value l.value)
  | .version a, .version b => .ok (compare a.number b.number)
  | .text s, .text t => .ok (compare s t)
  | v, w =>
    match v.integer?, w.integer? with
    | some i, some j => .ok (compare i j)
    | _, _ => .error (notOrdered v w)

end CasStore
