/-
# JSON values

A library of its own: values, the two ways to look into an object, and the
length of the compact encoding. The order of an object's fields is the order in
which it was built; a lookup takes the first field of a name.
-/

import Mathlib

/-- A number as it is printed, which is never long. -/
structure JsonNumber where
  text : String
  short : text.toList.length ≤ 32
  deriving DecidableEq

inductive Json where
  | null
  | bool (value : Bool)
  | number (value : JsonNumber)
  | string (value : String)
  | array (items : List Json)
  | object (fields : List (String × Json))

namespace Json

/-- The member of an object under a name. -/
def get? : Json → String → Option Json
  | object fields, name => (fields.find? fun f => f.1 = name).map Prod.snd
  | _, _ => none

/-- A member of a member: the pointer `/a/b`. -/
def pointer (v : Json) (a b : String) : Option Json := (v.get? a).bind fun inner => inner.get? b

def asStr? : Json → Option String
  | string s => some s
  | _ => none

def isNumber : Json → Bool
  | number _ => true
  | _ => false

def isObject : Json → Bool
  | object _ => true
  | _ => false

/-- The bytes of a text. -/
def byteLength (s : String) : Nat := (s.toList.map Char.utf8Size).sum

/-- The bytes of a character inside a quoted text. -/
def escapedSize (c : Char) : Nat :=
  if c = '"' ∨ c = '\\' ∨ c = '\n' ∨ c = '\r' ∨ c = '\t' ∨ c.val = 8 ∨ c.val = 12 then 2
  else if c.val < 32 then 6
  else c.utf8Size

/-- The bytes of a quoted text. -/
def quotedLength (s : String) : Nat := 2 + (s.toList.map escapedSize).sum

mutual

/-- The bytes of the compact encoding. -/
def encodedLength : Json → Nat
  | null => 4
  | bool value => if value then 4 else 5
  | number value => value.text.toList.length
  | string value => quotedLength value
  | array items => 1 + itemsLength items
  | object fields => 1 + fieldsLength fields

/-- The items, each with the comma or bracket after it. -/
def itemsLength : List Json → Nat
  | [] => 1
  | [item] => encodedLength item + 1
  | item :: rest => encodedLength item + 1 + itemsLength rest

/-- The fields, each with the comma or brace after it. -/
def fieldsLength : List (String × Json) → Nat
  | [] => 1
  | [field] => quotedLength field.1 + 1 + encodedLength field.2 + 1
  | field :: rest => quotedLength field.1 + 1 + encodedLength field.2 + 1 + fieldsLength rest

end

theorem escapedSize_le (c : Char) : escapedSize c ≤ 6 * c.utf8Size := by
  have hpos := c.utf8Size_pos
  unfold escapedSize
  split
  · omega
  · split
    · omega
    · omega

/-- Quoting makes a text at most six times as long. -/
theorem quotedLength_le (s : String) : quotedLength s ≤ 2 + 6 * byteLength s := by
  have h : ∀ cs : List Char, (cs.map escapedSize).sum ≤ 6 * (cs.map Char.utf8Size).sum := by
    intro cs
    induction cs with
    | nil => simp
    | cons c cs ih =>
        have hc := escapedSize_le c
        simp only [List.map_cons, List.sum_cons]
        omega
  have hs := h s.toList
  simp only [quotedLength, byteLength]
  omega

end Json
