import Verbatim.Decimal.Shortest
import Verbatim.Text.Quoted

/-!
# Raw values

The values of the exchange format: trees travel between programs as JSON. Integers and numbers with
a fraction are apart, because the two are told apart wherever a value is checked. The fields of an
object keep their order, and a name occurs once: `insertField` replaces.

## Main definitions

* `Json`, `Json.beq`: values and their equality
* `Json.get?`, `Json.present?`: a field of an object, the latter without the ones that hold null
* `Json.typeName`, `Json.quotedText`, `Json.plainText`: how messages show a value

## Main results

* `Json.eq_of_beq`: values that test equal are equal
-/

namespace Verbatim

/-- A raw value. -/
inductive Json where
  | null
  | bool (value : Bool)
  | int (value : Int)
  | float (value : Double)
  | text (value : String)
  | array (items : List Json)
  | object (fields : List (String × Json))
  deriving Inhabited

namespace Json

/-! ### Equality -/

mutual

/-- Equality of values. Numbers with and without a fraction differ, and the order of fields
counts. -/
def beq : Json → Json → Bool
  | null, null => true
  | bool a, bool b => a == b
  | int a, int b => a == b
  | float a, float b => a == b
  | text a, text b => a == b
  | array as, array bs => beqItems as bs
  | object as, object bs => beqFields as bs
  | _, _ => false

/-- Equality of lists of values. -/
def beqItems : List Json → List Json → Bool
  | [], [] => true
  | a :: as, b :: bs => beq a b && beqItems as bs
  | _, _ => false

/-- Equality of lists of fields. -/
def beqFields : List (String × Json) → List (String × Json) → Bool
  | [], [] => true
  | (k, a) :: as, (l, b) :: bs => k == l && beq a b && beqFields as bs
  | _, _ => false

end

instance : BEq Json := ⟨beq⟩

mutual

theorem eq_of_beq : ∀ {a b : Json}, beq a b → a = b
  | null, b, h => by cases b <;> simp [beq] at h ⊢
  | bool _, b, h => by cases b <;> simp [beq] at h ⊢; exact h
  | int _, b, h => by cases b <;> simp [beq] at h ⊢; exact h
  | float _, b, h => by cases b <;> simp [beq] at h ⊢; exact h
  | text _, b, h => by cases b <;> simp [beq] at h ⊢; exact h
  | array _, b, h => by cases b <;> simp [beq] at h ⊢; exact eq_of_beqItems h
  | object _, b, h => by cases b <;> simp [beq] at h ⊢; exact eq_of_beqFields h

theorem eq_of_beqItems : ∀ {as bs : List Json}, beqItems as bs → as = bs
  | [], [], _ => rfl
  | [], _ :: _, h => by simp [beqItems] at h
  | _ :: _, [], h => by simp [beqItems] at h
  | a :: as, b :: bs, h => by
    simp only [beqItems, Bool.and_eq_true] at h
    rw [eq_of_beq h.1, eq_of_beqItems h.2]

theorem eq_of_beqFields : ∀ {as bs : List (String × Json)}, beqFields as bs → as = bs
  | [], [], _ => rfl
  | [], _ :: _, h => by simp [beqFields] at h
  | _ :: _, [], h => by simp [beqFields] at h
  | (k, a) :: as, (l, b) :: bs, h => by
    simp only [beqFields, Bool.and_eq_true, beq_iff_eq] at h
    rw [h.1.1, eq_of_beq h.1.2, eq_of_beqFields h.2]

end

/-! ### Fields -/

/-- The value of a field, `none` if the value is no object or has no such field. -/
def get? : Json → String → Option Json
  | object fields, name => fields.lookup name
  | _, _ => none

/-- The value of a field that is there and not null. -/
def present? (value : Json) (name : String) : Option Json :=
  match value.get? name with
  | some null => none
  | found => found

/-- The fields with one of them set: in its old place if the name is there, else at the end. -/
def insertField (name : String) (value : Json) : List (String × Json) → List (String × Json)
  | [] => [(name, value)]
  | field :: rest =>
    if field.1 = name then (name, value) :: rest else field :: insertField name value rest

/-! ### In messages -/

/-- The name of the value's type. -/
def typeName : Json → String
  | null => "NoneType"
  | bool _ => "bool"
  | int _ => "int"
  | float _ => "float"
  | text _ => "str"
  | array _ => "list"
  | object _ => "dict"

mutual

/-- The value as messages quote it. -/
def quotedText : Json → String
  | null => "None"
  | bool true => "True"
  | bool false => "False"
  | int n => toString n
  | float x => x.text
  | text s => Text.quoted s
  | array items => "[" ++ ", ".intercalate (quotedItems items) ++ "]"
  | object fields => "\x7b" ++ ", ".intercalate (quotedFields fields) ++ "\x7d"

/-- The items of an array, each quoted. -/
def quotedItems : List Json → List String
  | [] => []
  | item :: rest => quotedText item :: quotedItems rest

/-- The fields of an object, each quoted. -/
def quotedFields : List (String × Json) → List String
  | [] => []
  | (name, value) :: rest =>
    (Text.quoted name ++ ": " ++ quotedText value) :: quotedFields rest

end

/-- The value as running text: a text stands for itself. -/
def plainText : Json → String
  | text s => s
  | value => value.quotedText

end Json

end Verbatim
