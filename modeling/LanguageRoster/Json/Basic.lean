import LanguageRoster.Text.Basic
import LanguageRoster.Decimal.Binary64

/-!
# JSON documents

* `Json` : a document; the fields of an object keep their order
* `Json.field?` : the value of a field
* `Json.update` : the value of a field changed
-/

namespace LanguageRoster

set_option autoImplicit false

/-- A JSON document. Numbers are integers, or binary fractions where they do not fit. -/
inductive Json where
  | null
  | bool (b : Bool)
  | integer (n : Int)
  | float (x : Binary64)
  | string (t : Text)
  | list (items : List Json)
  | object (fields : List (Text × Json))
  deriving Repr

namespace Json

/-! ## Equality -/

mutual

def same : Json → Json → Bool
  | .null, .null => true
  | .bool a, .bool b => a == b
  | .integer m, .integer n => m == n
  | .float x, .float y => x == y
  | .string s, .string t => s == t
  | .list as, .list bs => sameItems as bs
  | .object fs, .object gs => sameFields fs gs
  | _, _ => false

def sameItems : List Json → List Json → Bool
  | [], [] => true
  | a :: as, b :: bs => same a b && sameItems as bs
  | _, _ => false

def sameFields : List (Text × Json) → List (Text × Json) → Bool
  | [], [] => true
  | (k, v) :: fs, (l, w) :: gs => k == l && same v w && sameFields fs gs
  | _, _ => false

end

mutual

theorem same_iff : ∀ a b : Json, same a b = true ↔ a = b
  | .null, b => by cases b <;> simp [same]
  | .bool _, b => by cases b <;> simp [same]
  | .integer _, b => by cases b <;> simp [same]
  | .float _, b => by cases b <;> simp [same]
  | .string _, b => by cases b <;> simp [same]
  | .list as, b => by cases b <;> simp [same, sameItems_iff as]
  | .object fs, b => by cases b <;> simp [same, sameFields_iff fs]

theorem sameItems_iff : ∀ as bs : List Json, sameItems as bs = true ↔ as = bs
  | [], bs => by cases bs <;> simp [sameItems]
  | a :: as, bs => by cases bs <;> simp [sameItems, same_iff a, sameItems_iff as]

theorem sameFields_iff : ∀ fs gs : List (Text × Json), sameFields fs gs = true ↔ fs = gs
  | [], gs => by cases gs <;> simp [sameFields]
  | (k, v) :: fs, gs => by
    cases gs with
    | nil => simp [sameFields]
    | cons g gs => obtain ⟨l, w⟩ := g; simp [sameFields, same_iff v, sameFields_iff fs]

end

instance : DecidableEq Json := fun a b => decidable_of_iff _ (same_iff a b)

/-! ## Fields -/

def field? (key : Text) : Json → Option Json
  | .object fields => fields.lookup key
  | _ => none

def updateField (key : Text) (f : Json → Json) : List (Text × Json) → List (Text × Json)
  | [] => []
  | (k, v) :: fields => if k = key then (k, f v) :: fields else (k, v) :: updateField key f fields

def update (key : Text) (f : Json → Json) : Json → Json
  | .object fields => .object (updateField key f fields)
  | v => v

def text? : Json → Option Text
  | .string t => some t
  | _ => none

end Json

end LanguageRoster
