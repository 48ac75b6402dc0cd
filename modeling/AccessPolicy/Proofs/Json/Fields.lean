import AccessPolicy.Grammar.Encode

namespace AccessPolicy.Json

/-- Whether something holds of each field, of its key and what stands under it. -/
def EachField (P : String → Value → Prop) (ms : List (String × Value)) : Prop :=
  ∀ m ∈ ms, P m.1 m.2

variable {P : String → Value → Prop}

@[simp] theorem eachField_nil : EachField P [] :=
  List.forall_mem_nil _

@[simp] theorem eachField_cons {key : String} {v : Value} {ms : List (String × Value)} :
    EachField P ((key, v) :: ms) ↔ P key v ∧ EachField P ms :=
  List.forall_mem_cons

@[simp] theorem eachField_append {ms ns : List (String × Value)} :
    EachField P (ms ++ ns) ↔ EachField P ms ∧ EachField P ns :=
  List.forall_mem_append

@[simp] theorem eachField_textField {key text : String} :
    EachField P (textField key text) ↔ P key (.string text) := by
  simp [textField]

@[simp] theorem eachField_textField? {key : String} {text : Option String} :
    EachField P (textField? key text) ↔ ∀ t ∈ text, P key (.string t) := by
  cases text <;> simp [textField?]

@[simp] theorem eachField_flagField {key : String} {flag : Bool} :
    EachField P (flagField key flag) ↔ (flag → P key (.bool true)) := by
  cases flag <;> simp [flagField]

@[simp] theorem eachField_listField {key : String} {items : List Value} :
    EachField P (listField key items) ↔ (items ≠ [] → P key (.array items)) := by
  cases items <;> simp [listField]

@[simp] theorem eachField_childField? {key : String} {encode : α → Value} {child : Option α} :
    EachField P (childField? key encode child) ↔ ∀ a ∈ child, P key (encode a) := by
  cases child <;> simp [childField?]

end AccessPolicy.Json
