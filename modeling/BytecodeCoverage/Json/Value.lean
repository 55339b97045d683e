-- SUMMARY: JSON values.
import BytecodeCoverage.Decimal.Binary64
import BytecodeCoverage.Decimal.Numeral

/-!
# JSON values

Whole numbers and numbers with a point or an exponent are told apart. An object keeps the order of
its keys.
-/

namespace BytecodeCoverage

inductive Json where
  | null
  | bool (b : Bool)
  | int (n : Int)
  | real (x : Binary64)
  | str (s : String)
  | arr (items : List Json)
  | obj (fields : List (String × Json))
  deriving Repr, Inhabited

namespace Json

/-- Put a field. A key that is there already keeps its place and takes the new value. -/
def putField (key : String) (value : α) : List (String × α) → List (String × α)
  | [] => [(key, value)]
  | (k, v) :: rest => if k = key then (k, value) :: rest else (k, v) :: putField key value rest

/-- The fields with each key once, at its first place and with its last value. -/
def uniteFields (fields : List (String × α)) : List (String × α) :=
  fields.foldl (fun done (key, value) => putField key value done) []

theorem lookup_putField (key key' : String) (value : α) (fields : List (String × α)) :
    (putField key value fields).lookup key' =
      if key' = key then some value else fields.lookup key' := by
  induction fields with
  | nil =>
    by_cases h : key' = key
    · simp [putField, h]
    · simp [putField, h, List.lookup_cons, beq_eq_false_iff_ne.2 h]
  | cons field rest ih =>
    obtain ⟨k, v⟩ := field
    by_cases hk : k = key
    · subst hk
      by_cases h : key' = k
      · simp [putField, h]
      · simp [putField, h, List.lookup_cons, beq_eq_false_iff_ne.2 h]
    · by_cases h : key' = k
      · subst h
        simp [putField, hk]
      · simp [putField, hk, List.lookup_cons, beq_eq_false_iff_ne.2 h, ih]

mutual

/-- Whether every whole number in a value may be written as text. -/
def isWritable : Json → Bool
  | .int n => Numeral.isWritable n
  | .arr items => itemsAreWritable items
  | .obj fields => fieldsAreWritable fields
  | _ => true

def itemsAreWritable : List Json → Bool
  | [] => true
  | item :: rest => item.isWritable && itemsAreWritable rest

def fieldsAreWritable : List (String × Json) → Bool
  | [] => true
  | (_, value) :: rest => value.isWritable && fieldsAreWritable rest

end

/-- The value of a field, if the value is an object that has it. -/
def field? (j : Json) (key : String) : Option Json :=
  match j with
  | .obj fields => fields.lookup key
  | _ => none

end Json

end BytecodeCoverage
