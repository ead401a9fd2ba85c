/-
JSON values.

A number is either whole or a finite binary64 value; the two are kept apart,
because they are written differently.  The members of an object keep the order
they were given in; `Json.ofMembers` is the object whose members are sorted by
key, the last value of a repeated key winning.
-/
import Bracework.Number.Binary64
import Bracework.Text.Assoc

namespace Bracework

/-- A JSON value. -/
inductive Json where
  | null
  | bool (value : Bool)
  | whole (value : Int)
  | real (negative : Bool) (code : Fin Binary64.codes)
  | string (text : String)
  | array (items : List Json)
  | object (members : List (String × Json))
deriving Inhabited, Repr

namespace Json

/-- A binary64 value; JSON has no number for the others, so they are `null`. -/
def ofBinary64 : Binary64 → Json
  | .finite negative code => .real negative code
  | .infinite _ => .null
  | .nan => .null

/-- The object with the given members, sorted by key; the last of a repeated key wins. -/
def ofMembers (members : List (String × Json)) : Json :=
  .object (Named.sorted members)

mutual
/-- The same value with the members of every object sorted by key. -/
def sorted : Json → Json
  | .null => .null
  | .bool value => .bool value
  | .whole value => .whole value
  | .real negative code => .real negative code
  | .string text => .string text
  | .array items => .array (sortedItems items)
  | .object members => ofMembers (sortedMembers members)
termination_by structural v => v

/-- `sorted` on every item. -/
def sortedItems : List Json → List Json
  | [] => []
  | v :: vs => sorted v :: sortedItems vs
termination_by structural vs => vs

/-- `sorted` on every member's value. -/
def sortedMembers : List (String × Json) → List (String × Json)
  | [] => []
  | (k, v) :: ms => (k, sorted v) :: sortedMembers ms
termination_by structural ms => ms
end

/-- Whether two finite numbers are equal: the two zeros are one number. -/
def sameReal (negative₁ : Bool) (code₁ : Nat) (negative₂ : Bool) (code₂ : Nat) : Bool :=
  code₁ == code₂ && (negative₁ == negative₂ || code₁ == 0)

mutual
/-- Equality of values.  A whole number is never equal to one that is not. -/
def same : Json → Json → Bool
  | .null, .null => true
  | .bool a, .bool b => a == b
  | .whole a, .whole b => a == b
  | .real s a, .real t b => sameReal s a.val t b.val
  | .string a, .string b => a == b
  | .array as, .array bs => sameItems as bs
  | .object as, .object bs => sameMembers as bs
  | _, _ => false
termination_by structural v => v

/-- Item by item. -/
def sameItems : List Json → List Json → Bool
  | [], [] => true
  | a :: as, b :: bs => same a b && sameItems as bs
  | _, _ => false
termination_by structural vs => vs

/-- Member by member, in order. -/
def sameMembers : List (String × Json) → List (String × Json) → Bool
  | [], [] => true
  | (j, a) :: as, (k, b) :: bs => j == k && same a b && sameMembers as bs
  | _, _ => false
termination_by structural ms => ms
end

end Json

end Bracework
