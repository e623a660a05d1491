import NamespaceMerge.Number.Basic
import NamespaceMerge.Text.Utf16

/-! JSON documents. The members of an object are ordered, and setting a member that is there keeps
its place. -/

namespace NamespaceMerge

inductive Json
  | null
  | bool (b : Bool)
  | number (n : Number)
  | string (units : Utf16)
  | array (items : List Json)
  | object (members : List (Utf16 × Json))
deriving Inhabited

namespace Json

abbrev Members := List (Utf16 × Json)

namespace Members

def get? (members : Members) (key : Utf16) : Option Json := members.lookup key

/-- Sets a member: in place if the key is there, else at the end. -/
def set (members : Members) (key : Utf16) (value : Json) : Members :=
  match members with
  | [] => [(key, value)]
  | (k, v) :: rest => if k = key then (k, value) :: rest else (k, v) :: set rest key value

def erase (members : Members) (key : Utf16) : Members := members.filter (·.1 ≠ key)

def keys (members : Members) : List Utf16 := members.map (·.1)

/-- The members of a document that repeats keys: the last value of each, at its first place. -/
def ofList (pairs : Members) : Members := pairs.foldl (fun m (k, v) => m.set k v) []

/-- Sets all members of `changes`, in their order. -/
def update (members changes : Members) : Members :=
  changes.foldl (fun m (k, v) => m.set k v) members

theorem get?_set_self (members : Members) (key : Utf16) (value : Json) :
    (members.set key value).get? key = some value := by
  induction members with
  | nil => simp [set, get?]
  | cons head rest ih =>
    obtain ⟨k, v⟩ := head
    simp only [get?] at ih
    by_cases h : k = key
    · simp [set, get?, h]
    · have h' : (key == k) = false := by simpa using fun e => h e.symm
      simp [set, get?, h, List.lookup_cons, h', ih]

theorem get?_set_of_ne (members : Members) {key other : Utf16} (value : Json) (h : other ≠ key) :
    (members.set key value).get? other = members.get? other := by
  induction members with
  | nil =>
    have h' : (other == key) = false := by simpa using h
    simp [set, get?, List.lookup_cons, h']
  | cons head rest ih =>
    obtain ⟨k, v⟩ := head
    simp only [get?] at ih
    by_cases hk : k = key
    · subst hk
      have h' : (other == k) = false := by simpa using h
      simp [set, get?, List.lookup_cons, h']
    · by_cases ho : other = k
      · simp [set, get?, hk, ho]
      · have h' : (other == k) = false := by simpa using ho
        simp [set, get?, hk, List.lookup_cons, h', ih]

end Members

/-- No object in the value repeats a key. -/
inductive Keyed : Json → Prop
  | null : Keyed null
  | bool (b : Bool) : Keyed (bool b)
  | number (n : Number) : Keyed (number n)
  | string (units : Utf16) : Keyed (string units)
  | array {items : List Json} (h : ∀ item ∈ items, Keyed item) : Keyed (array items)
  | object {members : Members} (distinct : members.keys.Nodup)
      (h : ∀ member ∈ members, Keyed member.2) : Keyed (object members)

def ofString (s : String) : Json := string (Utf16.ofString s)

def ofNat (n : Nat) : Json := number (.integer n)

/-- Whether a value counts as present: null, false, zero and what is empty do not. -/
def isTruthy : Json → Bool
  | null => false
  | bool b => b
  | number (.integer i) => i != 0
  | number (.real x) => x != 0
  | string units => !units.isEmpty
  | array items => !items.isEmpty
  | object members => !members.isEmpty

end Json

end NamespaceMerge
