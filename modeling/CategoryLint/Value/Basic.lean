import CategoryLint.Number.Binary64
import CategoryLint.Text.CodePoint
import CategoryLint.Value.Date

/-!
# Configuration values

A configuration is a value: a scalar, a list, or a mapping whose entries keep the order in
which they were made. The keys of a mapping are scalars, and numbers that are equal are one
key, whatever their kind: `true`, `1` and `1.0`. Storing under a key that is there keeps the
key and its position.

A list or mapping that stands in several places of a document, or inside itself, is kept
apart from the tree, and a link is in each of its places.
-/

namespace CategoryLint

/-- A value without parts. -/
inductive Scalar where
  /-- No value. -/
  | null
  /-- A truth value. -/
  | bool (b : Bool)
  /-- An integer. -/
  | int (n : Int)
  /-- A floating-point number. -/
  | float (x : Binary64)
  /-- A text. -/
  | str (s : TextValue)
  /-- A list of bytes. -/
  | bytes (bs : List UInt8)
  /-- A day. -/
  | date (d : Date)
  /-- A time on a day. -/
  | timestamp (t : Timestamp)
  deriving DecidableEq, Repr

/-- What a scalar is as a key: equal scalars have one. -/
inductive Key where
  /-- The key of no value. -/
  | null
  /-- The key of a truth value or a number that is an integer. -/
  | integer (n : Int)
  /-- The key of every other number. -/
  | number (x : Binary64)
  /-- The key of a text. -/
  | text (s : TextValue)
  /-- The key of a list of bytes. -/
  | bytes (bs : List UInt8)
  /-- The key of a day. -/
  | date (d : Date)
  /-- The key of a time whose distance to universal time is unknown. -/
  | localTime (t : Timestamp)
  /-- The key of a time whose distance to universal time is known. -/
  | instant (microseconds : Int)
  deriving DecidableEq, Repr

/-- The key that a scalar is. -/
def Scalar.key : Scalar → Key
  | null => .null
  | bool b => .integer (if b then 1 else 0)
  | int n => .integer n
  | float x =>
    match x.toInt? with
    | some n => .integer n
    | none => .number x
  | str s => .text s
  | bytes bs => .bytes bs
  | date d => .date d
  | timestamp t => if t.offset.isSome then .instant t.instant else .localTime t

/-- What a link leads to. -/
inductive Shape where
  /-- A list, of values or of pairs. -/
  | list
  /-- A set. -/
  | set
  /-- A mapping. -/
  | mapping
  deriving DecidableEq, Repr

/-- A configuration value. -/
inductive Value where
  /-- A value without parts. -/
  | scalar (s : Scalar)
  /-- A list of values. -/
  | list (items : List Value)
  /-- A list of pairs. -/
  | pairs (items : List (Value × Value))
  /-- A set, by its members in the order in which they were put in. -/
  | set (members : List Scalar)
  /-- A mapping, by its entries in the order in which they were made. -/
  | mapping (entries : List (Scalar × Value))
  /-- A link to the list, set or mapping with a number. -/
  | link (shape : Shape) (number : Nat)
  deriving Repr, Inhabited

/-- The entries of a mapping. -/
abbrev Entries := List (Scalar × Value)

namespace Entries

/-- The value under a key. -/
def get? (es : Entries) (k : Scalar) : Option Value :=
  match es with
  | [] => none
  | (k', v) :: es => if k'.key = k.key then some v else get? es k

/-- The keys of a mapping. -/
def keys (es : Entries) : List Scalar := es.map (·.1)

/-- The entries with a value under a key: in place of the one that was there, or
    at the end. -/
def put (es : Entries) (k : Scalar) (v : Value) : Entries :=
  match es with
  | [] => [(k, v)]
  | (k', v') :: es => if k'.key = k.key then (k', v) :: es else (k', v') :: put es k v

/-- What was stored under a key is found there. -/
theorem get?_put_self (es : Entries) {k k' : Scalar} (v : Value) (h : k.key = k'.key) :
    (es.put k v).get? k' = some v := by
  induction es with
  | nil => simp [put, get?, h]
  | cons e es ih =>
    obtain ⟨l, u⟩ := e
    by_cases hl : l.key = k.key
    · simp [put, get?, hl, h]
    · simpa [put, get?, hl, h ▸ hl] using ih

/-- Storing under a key leaves the values under all others. -/
theorem get?_put_of_ne (es : Entries) {k k' : Scalar} (v : Value) (h : k.key ≠ k'.key) :
    (es.put k v).get? k' = es.get? k' := by
  induction es with
  | nil => simp [put, get?, h]
  | cons e es ih =>
    obtain ⟨l, u⟩ := e
    by_cases hl : l.key = k.key
    · simp [put, get?, hl, h]
    · by_cases hl' : l.key = k'.key
      · rw [put, if_neg hl, get?, get?, if_pos hl', if_pos hl']
      · rw [put, if_neg hl, get?, get?, if_neg hl', if_neg hl', ih]

/-- The keys of a mapping with a first entry. -/
theorem keys_cons (k : Scalar) (v : Value) (es : Entries) :
    keys ((k, v) :: es) = k :: keys es := rfl

/-- Storing under a key keeps all keys in their order, and adds the key at the end if
    there was none like it. -/
theorem keys_put (es : Entries) (k : Scalar) (v : Value) :
    (es.put k v).keys = if es.keys.any (·.key = k.key) then es.keys else es.keys ++ [k] := by
  induction es with
  | nil => rfl
  | cons e es ih =>
    obtain ⟨l, u⟩ := e
    rw [keys_cons, List.any_cons, put]
    by_cases hl : l.key = k.key
    · simp [hl, keys_cons]
    · rw [if_neg hl, keys_cons, ih, decide_eq_false hl, Bool.false_or]
      split <;> rfl

end Entries

namespace Value

/-- A value that is no value. -/
abbrev null : Value := .scalar .null

/-- A text as a value. -/
abbrev str (s : String) : Value := .scalar (.str s)

/-- An integer as a value. -/
abbrev int (n : Int) : Value := .scalar (.int n)

/-- A truth value as a value. -/
abbrev bool (b : Bool) : Value := .scalar (.bool b)

/-- Whether a value is a text. -/
def isStr : Value → Bool
  | .scalar (.str _) => true
  | _ => false

/-- The entries of a mapping; of any other value, none. -/
def entries : Value → Entries
  | .mapping es => es
  | _ => []

/-- Whether a value counts as given: no value, false, zero, and the empty text, list, set
    and mapping do not. -/
def isGiven : Value → Bool
  | .scalar .null => false
  | .scalar (.bool b) => b
  | .scalar (.int n) => n != 0
  | .scalar (.float x) => !x.isZero
  | .scalar (.str s) => s != .plain ""
  | .scalar (.bytes bs) => !bs.isEmpty
  | .scalar _ => true
  | .list items => !items.isEmpty
  | .pairs items => !items.isEmpty
  | .set members => !members.isEmpty
  | .mapping es => !es.isEmpty
  | .link _ _ => true

end Value

end CategoryLint
