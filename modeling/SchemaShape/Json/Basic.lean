import SchemaShape.Decimal.Binary64

/-! # JSON values

Values keep what a schema reader may look at: whether a number was written as an integer, and the
order of an object's members. A key occurs once in an object; `Members.set` keeps that, and
`Members.remove` fills the gap with the last member, so that removal leaves the other members'
order alone except for that one.
-/

namespace SchemaShape
set_option autoImplicit false

/-- Integers run from `-2 ^ 63` to `2 ^ 64 - 1`; every other number, and `-0`, is a double. -/
inductive Number where
  | integer (value : Int)
  | double (value : Binary64)
  deriving DecidableEq, Repr, Inhabited

namespace Number

def toBinary64 : Number → Binary64
  | integer value => Binary64.ofInt value
  | double value => value

end Number

inductive Json where
  | null
  | bool (value : Bool)
  | number (value : Number)
  | string (value : String)
  | array (items : List Json)
  | object (members : List (String × Json))
  deriving BEq, Repr, Inhabited

/-- The members of an object, in order. -/
abbrev Members := List (String × Json)

/-! ## Members -/

namespace Members

def get? (members : Members) (key : String) : Option Json :=
  members.lookup key

def contains (members : Members) (key : String) : Bool :=
  members.any (·.1 == key)

/-- Overwrites in place, or appends. -/
def set (key : String) (value : Json) : Members → Members
  | [] => [(key, value)]
  | (k, v) :: rest => if k = key then (key, value) :: rest else (k, v) :: set key value rest

/-- The last member takes the place of the removed one. -/
def remove (key : String) : Members → Members
  | [] => []
  | (k, v) :: rest =>
    if k = key then
      match rest.getLast? with
      | none => []
      | some last => last :: rest.dropLast
    else (k, v) :: remove key rest

def extend (members added : Members) : Members :=
  added.foldl (fun acc (key, value) => acc.set key value) members

theorem sizeOf_get? {members : Members} {key : String} {value : Json}
    (h : members.get? key = some value) : sizeOf value < sizeOf members := by
  induction members with
  | nil => simp [Members.get?] at h
  | cons member rest ih =>
    obtain ⟨k, v⟩ := member
    simp only [Members.get?, List.lookup_cons] at h
    simp only [List.cons.sizeOf_spec, Prod.mk.sizeOf_spec]
    split at h
    · simp only [Option.some.injEq] at h
      subst h
      omega
    · have := ih h
      omega

end Members

/-! ## Parts of a value -/

namespace Json

def get? : Json → String → Option Json
  | object members, key => Members.get? members key
  | _, _ => none

def asString? : Json → Option String
  | string value => some value
  | _ => none

def asMembers? : Json → Option Members
  | object members => some members
  | _ => none

def asArray? : Json → Option (List Json)
  | array items => some items
  | _ => none

def kindText : Json → String
  | null => "null"
  | bool _ => "a boolean"
  | number _ => "a number"
  | string _ => "a string"
  | array _ => "an array"
  | object _ => "an object"

/-! ## Nesting -/

mutual

/-- One more than the deepest part of a value. -/
def height : Json → Nat
  | array items => heightItems items + 1
  | object members => heightMembers members + 1
  | _ => 1

def heightItems : List Json → Nat
  | [] => 0
  | item :: rest => max item.height (heightItems rest)

def heightMembers : List (String × Json) → Nat
  | [] => 0
  | (_, value) :: rest => max value.height (heightMembers rest)

end

end Json

end SchemaShape
