import CallRedirect.Decimal.Shortest

/-!
# JSON values

A number is an integer or a 64-bit floating-point number.  The members of an
object are kept sorted by key, without repetition; adding a member under a key
that is there already replaces its value.
-/

namespace CallRedirect.Json

/-- A number of a JSON text.  Integers lie between `-2^63` and `2^64 - 1`. -/
inductive Number
  | integer (value : Int)
  | real (negative : Bool) (magnitude : Decimal.Magnitude)
  deriving DecidableEq, Repr, Inhabited

/-- Floating-point numbers are positional down to `0.00001`; every exponent has a
sign, and of two equally near texts the even one is taken. -/
def numberLayout : Decimal.Layout where
  zeros := 4
  plus := true
  tie := .toEven

/-- The text of a number: a floating-point number has a point or an exponent. -/
def Number.text : Number → String
  | integer value => toString value
  | real negative magnitude =>
      (if negative then "-" else "") ++
        numberLayout.magnitudeText Decimal.binary64 magnitude

/-- A JSON value. -/
inductive Value
  | null
  | bool (value : Bool)
  | number (value : Number)
  | string (value : String)
  | array (items : List Value)
  | object (members : List (String × Value))
  deriving Repr, Inhabited

/-- Put a member among sorted members, in the place of one with the same key. -/
def insertMember {α : Type} (key : String) (value : α) : List (String × α) → List (String × α)
  | [] => [(key, value)]
  | (first, current) :: rest =>
      if key < first then (key, value) :: (first, current) :: rest
      else if key = first then (key, value) :: rest
      else (first, current) :: insertMember key value rest

namespace Value

/-- The object with the given members; of two with one key the later counts. -/
def ofMembers (members : List (String × Value)) : Value :=
  .object (members.foldl (fun sorted (key, value) => insertMember key value sorted) [])

/-- The number of a natural number. -/
def ofNat (n : Nat) : Value := .number (.integer n)

/-- The array of texts. -/
def ofStrings (texts : List String) : Value := .array (texts.map .string)

/-! ## Comparing values -/

mutual

/-- Whether two values are the same. -/
def isSame : Value → Value → Bool
  | null, null => true
  | bool value, bool other => value = other
  | number value, number other => value = other
  | string value, string other => value = other
  | array items, array others => sameItems items others
  | object members, object others => sameMembers members others
  | _, _ => false

/-- Whether the items of two arrays are the same. -/
def sameItems : List Value → List Value → Bool
  | [], [] => true
  | item :: items, other :: others => isSame item other && sameItems items others
  | _, _ => false

/-- Whether the members of two objects are the same. -/
def sameMembers : List (String × Value) → List (String × Value) → Bool
  | [], [] => true
  | (key, value) :: members, (other, current) :: others =>
      decide (key = other) && isSame value current && sameMembers members others
  | _, _ => false

end

mutual

theorem isSame_iff (value other : Value) : isSame value other = true ↔ value = other := by
  cases value with
  | array items =>
      have hitems := sameItems_iff items
      cases other <;> simp [isSame, hitems]
  | object members =>
      have hmembers := sameMembers_iff members
      cases other <;> simp [isSame, hmembers]
  | _ => cases other <;> simp [isSame]

theorem sameItems_iff (items others : List Value) :
    sameItems items others = true ↔ items = others := by
  match items, others with
  | [], [] => simp [sameItems]
  | [], _ :: _ => simp [sameItems]
  | _ :: _, [] => simp [sameItems]
  | item :: items, other :: others =>
      simp [sameItems, isSame_iff item other, sameItems_iff items others]

theorem sameMembers_iff (members others : List (String × Value)) :
    sameMembers members others = true ↔ members = others := by
  match members, others with
  | [], [] => simp [sameMembers]
  | [], _ :: _ => simp [sameMembers]
  | _ :: _, [] => simp [sameMembers]
  | (key, value) :: members, (other, current) :: others =>
      simp [sameMembers, isSame_iff value current, sameMembers_iff members others]

end

instance : DecidableEq Value := fun value other => decidable_of_iff _ (isSame_iff value other)

end Value

end CallRedirect.Json
